import CollectorFormal.Lib.Wire
import CollectorFormal.Xpdata.Context

/-! Requests as a persistent queue stores them, with their context, and as older versions
stored them, as bare data. -/

namespace CollectorFormal.Xpdata

open Client (Text)
open Lib

section messages

abbrev Bytes := List UInt8

/-- The messages LogsRequest, TracesRequest and MetricsRequest. -/
structure RequestProto (D : Type) where
  formatVersion : UInt32
  requestContext : Option RequestContext
  data : D

def lenField (tag : UInt8) (message : Bytes) : Bytes := tag :: (varint 10 message.length ++ message)

def fixed32Field (tag : UInt8) (number : UInt32) : Bytes :=
  if number ≠ 0 then tag :: toLittleEndian 4 number.toNat else []

/-- MarshalProto of the messages inside: the resources of the data one by one, and the
context. -/
structure Messages (D : Type) where
  resources : D → List Bytes
  context : RequestContext → Bytes

/-- MarshalProto of the data, which is all there is in the older format. -/
def Messages.marshalData {D : Type} (messages : Messages D) (data : D) : Bytes :=
  (messages.resources data).flatMap (lenField 0x0A)

/-- The generated code fills the buffer from its end: first the context, then the data and
last the version. -/
def Messages.marshalProto {D : Type} (messages : Messages D) (request : RequestProto D) : Bytes :=
  fixed32Field 0x0D request.formatVersion ++ (lenField 0x1A (messages.marshalData request.data) ++
    match request.requestContext with
    | some rc => lenField 0x12 (messages.context rc)
    | none => [])

structure Codec (D : Type) extends Messages D where
  unmarshalProto : Bytes → Except String (RequestProto D)
  unmarshalData : Bytes → Except String D

/-- The generated code reads the request that it has written, and its data in the older format. -/
structure Codec.Inverse {D : Type} (codec : Codec D) (request : RequestProto D) : Prop where
  proto : codec.unmarshalProto (codec.marshalProto request) = .ok request
  data : codec.unmarshalData (codec.marshalData request.data) = .ok request.data

end messages

section request

def protoTag1TypeByte : UInt8 := 0x0D

def requestFormatVersion : UInt32 := 1

def isRequestPayloadV1 (data : Bytes) : Bool :=
  if data.length < 5 then false
  else if data.head? ≠ some protoTag1TypeByte then false
  else littleEndian ((data.drop 1).take 4) = requestFormatVersion.toNat

inductive Signal where
  | logs
  | traces
  | metrics
  deriving DecidableEq

inductive UnmarshalError where
  | invalidFormat
  | request (signal : Signal) (err : String)
  /-- What the unmarshaler of the bare data returns. -/
  | data (err : String)
  deriving DecidableEq

variable {D TS : Type} [Inhabited TS] {lower : Lowering} (codec : Codec D) (states : TraceStates TS) (ctx : Context TS lower)

def newRequest (data : D) : RequestProto D where
  formatVersion := requestFormatVersion
  data := data
  requestContext := some (encodeContext states ctx)

def marshalRequest (data : D) : Bytes := codec.marshalProto (newRequest states ctx data)

def unmarshalRequest (signal : Signal) (buf : Bytes) : Except UnmarshalError (Context TS lower × D) :=
  if !isRequestPayloadV1 buf then .error .invalidFormat
  else match codec.unmarshalProto buf with
    | .error err => .error (.request signal err)
    | .ok request => .ok (decodeContext states background request.requestContext, request.data)

def marshalLogs (ld : D) : Bytes := marshalRequest codec states ctx ld

def marshalTraces (td : D) : Bytes := marshalRequest codec states ctx td

def marshalMetrics (md : D) : Bytes := marshalRequest codec states ctx md

def unmarshalLogs (buf : Bytes) : Except UnmarshalError (Context TS lower × D) :=
  unmarshalRequest codec states .logs buf

def unmarshalTraces (buf : Bytes) : Except UnmarshalError (Context TS lower × D) :=
  unmarshalRequest codec states .traces buf

def unmarshalMetrics (buf : Bytes) : Except UnmarshalError (Context TS lower × D) :=
  unmarshalRequest codec states .metrics buf

end request

section encoding
variable {D TS : Type} [Inhabited TS] {lower : Lowering} (codec : Codec D) (states : TraceStates TS)

/-- What an encoding of the queue makes of an answer: bytes of the older format are read
without a context. -/
def withFallback (bytes : Bytes) :
    Except UnmarshalError (Context TS lower × D) → Except UnmarshalError (Context TS lower × D)
  | .error .invalidFormat =>
    match codec.unmarshalData bytes with
    | .error err => .error (.data err)
    | .ok data => .ok (background, data)
  | answer => answer

def logsEncoding.unmarshal (bytes : Bytes) : Except UnmarshalError (Context TS lower × D) :=
  withFallback codec bytes (unmarshalLogs codec states bytes)

def tracesEncoding.unmarshal (bytes : Bytes) : Except UnmarshalError (Context TS lower × D) :=
  withFallback codec bytes (unmarshalTraces codec states bytes)

def metricsEncoding.unmarshal (bytes : Bytes) : Except UnmarshalError (Context TS lower × D) :=
  withFallback codec bytes (unmarshalMetrics codec states bytes)

def logsEncoding.marshal (ctx : Context TS lower) (ld : D) : Bytes := marshalLogs codec states ctx ld

def tracesEncoding.marshal (ctx : Context TS lower) (td : D) : Bytes := marshalTraces codec states ctx td

def metricsEncoding.marshal (ctx : Context TS lower) (md : D) : Bytes := marshalMetrics codec states ctx md

end encoding

section formats
variable {D TS : Type} [Inhabited TS] {lower : Lowering} {codec : Codec D} {states : TraceStates TS}

theorem isRequestPayloadV1_marshal (ctx : Context TS lower) (data : D) :
    isRequestPayloadV1 (marshalRequest codec states ctx data) = true := by
  have field : fixed32Field 0x0D requestFormatVersion = [0x0D, 1, 0, 0, 0] := by decide
  simp only [marshalRequest, newRequest, Messages.marshalProto, field, List.cons_append, List.nil_append]
  rfl

theorem isRequestPayloadV1_marshalData (messages : Messages D) (data : D) :
    isRequestPayloadV1 (messages.marshalData data) = false := by
  unfold Messages.marshalData
  cases messages.resources data with
  | nil => rfl
  | cons resource rest =>
    have tag : some (0x0A : UInt8) ≠ some protoTag1TypeByte := by decide
    simp [isRequestPayloadV1, lenField, tag]

/-- What one signal does with a request and with one of the older format. -/
structure Persists (codec : Codec D) (ctx : Context TS lower) (data : D) (marshal : Context TS lower → D → Bytes)
    (unmarshal decode : Bytes → Except UnmarshalError (Context TS lower × D)) : Prop where
  recognised : isRequestPayloadV1 (marshal ctx data) = true
  unmarshals : ∃ decoded, unmarshal (marshal ctx data) = .ok (decoded, data) ∧ SameContext ctx decoded
  bare : isRequestPayloadV1 (codec.marshalData data) = false
  decodes : decode (marshal ctx data) = unmarshal (marshal ctx data)
  decodes_bare : decode (codec.marshalData data) = .ok (background, data)

theorem marshalRequest_persists {ctx : Context TS lower} {data : D}
    (inverse : codec.Inverse (newRequest states ctx data)) (signal : Signal) :
    Persists codec ctx data (marshalRequest codec states) (unmarshalRequest codec states signal)
      fun bytes => withFallback codec bytes (unmarshalRequest codec states signal bytes) := by
  have unmarshalled : unmarshalRequest codec states signal (marshalRequest codec states ctx data) =
      .ok ((decodeContext states background (some (encodeContext states ctx)) : Context TS lower), data) := by
    rw [unmarshalRequest, isRequestPayloadV1_marshal, marshalRequest, inverse.proto]
    rfl
  have bare := isRequestPayloadV1_marshalData codec.toMessages data
  refine ⟨isRequestPayloadV1_marshal ctx data, ⟨_, unmarshalled, decodeContext_encode ctx rfl⟩, bare, ?_, ?_⟩
  · rw [unmarshalled]
    rfl
  · have refused : unmarshalRequest codec states signal (codec.marshalData data) =
        (.error .invalidFormat : Except UnmarshalError (Context TS lower × D)) := by
      rw [unmarshalRequest, bare]
      rfl
    have read : codec.unmarshalData (codec.marshalData data) = .ok data := inverse.data
    simp only [refused, withFallback, read]

end formats

/-- For every signal, payload and context. -/
theorem persisted_requests_round_trip {D TS : Type} [Inhabited TS] {lower : Lowering} (codec : Codec D)
    (states : TraceStates TS) (ctx : Context TS lower) (data : D)
    (inverse : codec.Inverse (newRequest states ctx data)) :
    Persists codec ctx data (logsEncoding.marshal codec states) (unmarshalLogs codec states)
        (logsEncoding.unmarshal codec states) ∧
      Persists codec ctx data (tracesEncoding.marshal codec states) (unmarshalTraces codec states)
        (tracesEncoding.unmarshal codec states) ∧
      Persists codec ctx data (metricsEncoding.marshal codec states) (unmarshalMetrics codec states)
        (metricsEncoding.unmarshal codec states) :=
  ⟨marshalRequest_persists inverse .logs, marshalRequest_persists inverse .traces,
    marshalRequest_persists inverse .metrics⟩

section tenants

def asciiLowering : Lowering where
  toLower := Client.asciiLower
  idempotent := by
    intro text
    rw [Client.asciiLower, Client.asciiLower, List.map_map]
    apply List.map_congr_left
    intro byte _
    grind

def plainStates : TraceStates Text := ⟨id, some, fun _ => rfl⟩

/-- Behind a TCP address, with two values of one key, one of another and none of a third. -/
def tenantContext : Context Text asciiLowering where
  span := some ⟨Vector.replicate 16 1, Vector.replicate 8 2, 1, [118, 61, 49], true⟩
  client := some {
    addr := some (.tcp [127, 0, 0, 1] 4317 [])
    metadata := newMetadata [([84], [[97], [98]]), ([117], [[99]]), ([110], [])] }

def twoResources : List Bytes := [[8, 1], [8, 2]]

def tenantRequest : RequestProto (List Bytes) := newRequest plainStates tenantContext twoResources

def bytesMessages : Messages (List Bytes) where
  resources := id
  context rc := rc.clientMetadata.flatMap fun kv => lenField 0x0A kv.key

/-- Reads the one request that is stored. -/
def storedCodec : Codec (List Bytes) where
  toMessages := bytesMessages
  unmarshalProto bytes :=
    if bytes = bytesMessages.marshalProto tenantRequest then .ok tenantRequest else .error "unexpected EOF"
  unmarshalData bytes :=
    if bytes = bytesMessages.marshalData twoResources then .ok twoResources else .error "unexpected EOF"

theorem storedCodec_inverse : storedCodec.Inverse tenantRequest := by
  constructor
  · simp [storedCodec]
  · simp [storedCodec, tenantRequest, newRequest]

theorem persisted_requests_round_trip_tenants :
    (fromContext tenantContext).metadata.get Client.asciiLower [116] = [[97], [98]] ∧
      Persists storedCodec tenantContext twoResources (logsEncoding.marshal storedCodec plainStates)
        (unmarshalLogs storedCodec plainStates) (logsEncoding.unmarshal storedCodec plainStates) :=
  ⟨rfl, (persisted_requests_round_trip storedCodec plainStates tenantContext twoResources storedCodec_inverse).1⟩

end tenants

end CollectorFormal.Xpdata
