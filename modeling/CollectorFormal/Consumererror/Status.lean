import CollectorFormal.Lib.ErrorTree
import Mathlib.Tactic.Common

/-! The errors of consumers, and the HTTP and gRPC statuses they are turned into.

An error is a tree of plain errors, errors with a gRPC status and errors made by the package. Joins are of two. -/

namespace CollectorFormal.Consumererror

open Lib

/-- codes.Code -/
inductive Code where
  | ok
  | canceled
  | unknown
  | invalidArgument
  | deadlineExceeded
  | notFound
  | alreadyExists
  | permissionDenied
  | resourceExhausted
  | failedPrecondition
  | aborted
  | outOfRange
  | unimplemented
  | internal
  | unavailable
  | dataLoss
  | unauthenticated
  | other (code : Nat)
  deriving DecidableEq

def Code.asString : Code → String
  | ok => "OK"
  | canceled => "Canceled"
  | unknown => "Unknown"
  | invalidArgument => "InvalidArgument"
  | deadlineExceeded => "DeadlineExceeded"
  | notFound => "NotFound"
  | alreadyExists => "AlreadyExists"
  | permissionDenied => "PermissionDenied"
  | resourceExhausted => "ResourceExhausted"
  | failedPrecondition => "FailedPrecondition"
  | aborted => "Aborted"
  | outOfRange => "OutOfRange"
  | unimplemented => "Unimplemented"
  | internal => "Internal"
  | unavailable => "Unavailable"
  | dataLoss => "DataLoss"
  | unauthenticated => "Unauthenticated"
  | other code => "Code(" ++ toString code ++ ")"

structure Status where
  code : Code
  message : String
  deriving DecidableEq

def Status.errText (s : Status) : String := "rpc error: code = " ++ s.code.asString ++ " desc = " ++ s.message

def retryableHTTP : List Int := [429, 502, 503, 504]

/-- The gRPC codes after which NewOTLPGRPCError calls an error retryable. -/
def retryableGRPC : List Code := [.canceled, .deadlineExceeded, .aborted, .outOfRange, .unavailable, .dataLoss]

inductive Made : Int → Option Status → Bool → Prop
  | http {httpStatus : Int} (failure : ¬ (200 ≤ httpStatus ∧ httpStatus ≤ 299)) :
      Made httpStatus none (decide (httpStatus ∈ retryableHTTP))
  | grpc {status : Status} (failure : status.code ≠ .ok) :
      Made 0 (some status) (decide (status.code ∈ retryableGRPC))
  | retryable : Made 0 none true

structure Error where
  httpStatus : Int
  grpcStatus : Option Status
  isRetryable : Bool
  made : Made httpStatus grpcStatus isRetryable

inductive Label where
  | text (text : String)
  | status (status : Status)
  | error (error : Error)

abbrev Err := ErrorTree Label

def Label.error? : Label → Option Error
  | .error e => some e
  | _ => none

/-- Errors with a method GRPCStatus. -/
def Label.status? : Label → Option Status
  | .status s => some s
  | _ => none

/-- The error with the one it wraps: the original, or that of its gRPC status. -/
def Error.around (e : Error) (origErr : Option Err) : Err :=
  match origErr.or (e.grpcStatus.map fun status => .leaf (.status status)) with
  | some inner => .wrap (.error e) inner
  | none => .leaf (.error e)

/-- Without a value where the constructor panics. -/
def newOTLPHTTPError (origErr : Option Err) (httpStatus : Int) : Option Err :=
  if failure : ¬ (200 ≤ httpStatus ∧ httpStatus ≤ 299) then some (Error.around ⟨httpStatus, none, _, .http failure⟩ origErr)
  else none

def newOTLPGRPCError (origErr : Option Err) (status : Option Status) : Option Err :=
  match status with
  -- The same Error as for an HTTP code of 0.
  | none => newOTLPHTTPError origErr 0
  | some status =>
    if failure : status.code ≠ .ok then some (Error.around ⟨0, some status, _, .grpc failure⟩ origErr) else none

def newRetryableError (origErr : Option Err) : Err := Error.around ⟨0, none, true, .retryable⟩ origErr

def Label.errText : Label → String
  | .text whole => whole
  | .status s => s.errText
  | .error e =>
    match e.grpcStatus with
    | some s => s.errText
    | none =>
      if e.httpStatus > 0 then "network error: received HTTP status " ++ toString e.httpStatus
      else "uninitialized consumererror.Error"

def errText : Err → String
  | .wrap (.error _) inner => errText inner
  | err => err.root.errText

def getHTTPStatusCodeFromStatus (s : Status) : Int :=
  match s.code with
  | .canceled | .deadlineExceeded | .aborted | .outOfRange | .unavailable | .dataLoss => 503
  | .resourceExhausted => 429
  | .invalidArgument => 400
  | .unauthenticated => 401
  | .permissionDenied => 403
  | .unimplemented => 404
  | _ => 500

def newStatusFromMsgAndHTTPCode (errMsg : String) (statusCode : Int) : Status where
  code :=
    if statusCode = 400 then .invalidArgument
    else if statusCode = 401 then .unauthenticated
    else if statusCode = 403 then .permissionDenied
    else if statusCode = 404 then .unimplemented
    else if statusCode = 429 then .resourceExhausted
    else if statusCode = 502 ∨ statusCode = 503 ∨ statusCode = 504 then .unavailable
    else .unknown
  message := errMsg

variable (err : Err)

def toHTTPStatus : Int :=
  match err.as Label.error? with
  | some e =>
    if e.httpStatus ≠ 0 then e.httpStatus
    else
      match e.grpcStatus with
      | some status => getHTTPStatusCodeFromStatus status
      | none => if e.isRetryable then 503 else 500
  | none => 500

def First (e : Error) : Prop :=
  ∃ front back, err.labels = front ++ .error e :: back ∧ ∀ earlier ∈ front, earlier.error? = none

theorem first_iff (e : Error) : err.as Label.error? = some e ↔ First err e := by
  apply ErrorTree.as_eq_some_iff
  intro label found
  cases label with
  | error error => simp [Label.error?]
  | _ => simp [Label.error?]

theorem getHTTPStatusCodeFromStatus_mem (s : Status) :
    getHTTPStatusCodeFromStatus s ∈ retryableHTTP ↔ s.code ∈ retryableGRPC ∨ s.code = .resourceExhausted := by
  unfold getHTTPStatusCodeFromStatus
  cases s.code <;> simp [retryableHTTP, retryableGRPC]

theorem toHTTPStatus_mem_iff {err : Err} {e : Error} (found : err.as Label.error? = some e) :
    (toHTTPStatus err ∈ retryableHTTP ↔ e.isRetryable = true) ↔
      ∀ status, e.grpcStatus = some status → status.code ≠ .resourceExhausted := by
  unfold toHTTPStatus
  rw [found]
  rcases e with ⟨httpStatus, grpcStatus, isRetryable, made⟩
  cases made with
  | http failure =>
    by_cases coded : httpStatus = 0
    · subst coded
      simp [retryableHTTP]
    · simp [coded]
  | @grpc status failure =>
    simp only [ne_eq, not_true_eq_false, if_false, decide_eq_true_eq, Option.some.injEq, forall_eq']
    rw [getHTTPStatusCodeFromStatus_mem]
    by_cases exhausted : status.code = .resourceExhausted
    · simp [exhausted, retryableGRPC]
    · simp [exhausted]
  | retryable => simp [retryableHTTP]

/-- What is used of status.FromError. -/
class StatusPackage where
  fromError : Err → Option Status
  isSome_iff : ∀ err, (fromError err).isSome = true ↔ ∃ status, .status status ∈ err.labels

section conversions
variable [StatusPackage]

/-- The status of the tree, or that of an unknown error with the text of the Error found. Without any the text is
asked of a nil pointer. -/
def fallback (found : Option Err) (err : Err) : Option Status :=
  (StatusPackage.fromError err).or (found.map fun e => ⟨.unknown, errText e⟩)

/-- Without a value if the code panics. -/
def toGRPCStatus : Option Status :=
  match err.asNode Label.error? with
  | some (e, node) =>
    match e.grpcStatus with
    | some status => some status
    | none =>
      if e.httpStatus ≠ 0 then some (newStatusFromMsgAndHTTPCode (errText node) e.httpStatus)
      else if e.isRetryable then some ⟨.unavailable, errText node⟩
      else fallback (some node) err
  | none => fallback none err

/-- Both conversions return, and an Error that is found is retryable exactly if its HTTP code says so. -/
structure Converts (err : Err) : Prop where
  returns : (toGRPCStatus err).isSome = true
  retryability : ∀ e, err.as Label.error? = some e → (toHTTPStatus err ∈ retryableHTTP ↔ e.isRetryable = true)

theorem toGRPCStatus_isSome_iff :
    (toGRPCStatus err).isSome = true ↔ (∃ e, First err e) ∨ ∃ status, .status status ∈ err.labels := by
  have searched := ErrorTree.map_fst_asNode Label.error? err
  simp only [← first_iff, ← searched, ← StatusPackage.isSome_iff]
  unfold toGRPCStatus
  cases err.asNode Label.error? with
  | none => simp [fallback]
  | some found =>
    rcases found with ⟨e, node⟩
    refine iff_of_true ?_ (.inl ⟨e, rfl⟩)
    simp only
    cases e.grpcStatus with
    | some status => rfl
    | none =>
      by_cases coded : e.httpStatus ≠ 0
      · simp [coded]
      · by_cases retryable : e.isRetryable = true
        · simp [coded, retryable]
        · simp [coded, retryable, fallback]

/-- The conversions fail for trees without an Error and a status, and where the first Error is an exhausted resource.
-/
theorem converts_iff (err : Err) :
    Converts err ↔ ((∃ e, First err e) ∨ ∃ status, .status status ∈ err.labels) ∧
      ∀ e status, First err e → e.grpcStatus = some status → status.code ≠ .resourceExhausted := by
  rw [← toGRPCStatus_isSome_iff]
  constructor
  · intro converts
    refine ⟨converts.returns, ?_⟩
    intro e status first
    have found := (first_iff err e).mpr first
    exact (toHTTPStatus_mem_iff found).mp (converts.retryability e found) status
  · intro conditions
    rcases conditions with ⟨returns, exhausted⟩
    refine ⟨returns, ?_⟩
    intro e found
    apply (toHTTPStatus_mem_iff found).mpr
    intro status
    exact exhausted e status ((first_iff err e).mp found)

end conversions

/-- The status of the error itself, or the first one inside with the whole text. -/
def fromError : Option Status :=
  match err.root.status? with
  | some status => some status
  | none => (err.as Label.status?).map fun status => { status with message := errText err }

theorem fromError_isSome_iff : (fromError err).isSome = true ↔ ∃ status, .status status ∈ err.labels := by
  have found : (err.as Label.status?).isSome = true ↔ ∃ status, .status status ∈ err.labels := by
    rw [ErrorTree.as_isSome_iff]
    constructor
    · intro some_status
      rcases some_status with ⟨label, member, has_status⟩
      cases label with
      | status status => exact ⟨status, member⟩
      | _ => cases has_status
    · intro some_status
      rcases some_status with ⟨status, member⟩
      exact ⟨_, member, rfl⟩
  unfold fromError
  cases top : err.root.status? with
  | none => rw [Option.isSome_map, found]
  | some status =>
    refine iff_of_true rfl (found.mp ?_)
    rw [ErrorTree.as_isSome_iff]
    refine ⟨err.root, ErrorTree.root_mem_labels err, ?_⟩
    rw [top]
    rfl

@[reducible]
def statusPackage : StatusPackage := ⟨fromError, fromError_isSome_iff⟩

attribute [local instance] statusPackage

/-- A plain error makes the conversion to gRPC panic, and an exhausted resource is not retryable
though its HTTP code is 429. -/
theorem plain_error_panics :
    toGRPCStatus (.leaf (.text "connection refused")) = none ∧
      ∃ err e, newOTLPGRPCError none (some ⟨.resourceExhausted, "slow down"⟩) = some err ∧
        err.as Label.error? = some e ∧ e.isRetryable = false ∧ toHTTPStatus err = 429 :=
  ⟨rfl, _, _, rfl, rfl, rfl, rfl⟩

end CollectorFormal.Consumererror
