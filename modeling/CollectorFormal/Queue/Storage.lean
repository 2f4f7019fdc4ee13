import CollectorFormal.Lib.Program
import Mathlib.Logic.Function.Basic

/-! The storage client a persistent queue talks to: a map from keys to byte strings, where a missing key reads as
nil (`none`).

The client also counts what it was asked to do, so that properties about calls are properties of its state. Signals
to producers that wait for space are issued through the same calls, since they interleave with storage calls inside
one operation. -/

namespace CollectorFormal.Queue

open Lib

abbrev Bytes := List UInt8

inductive Key where
  | metadata
  | legacyReadIndex
  | legacyWriteIndex
  | legacyCurrentlyDispatchedItems
  | item (index : Nat)
  deriving DecidableEq

def getItemKey (index : Nat) : Key := .item index

abbrev Store := Key → Option Bytes

inductive Operation where
  | get (key : Key)
  | set (key : Key) (value : Bytes)
  | delete (key : Key)
  deriving DecidableEq

/-- Operations take effect in order; the results of the gets are listed. -/
def batch : List Operation → Store → Store × List (Option Bytes)
  | [], store => (store, [])
  | .get key :: rest, store => ((batch rest store).1, store key :: (batch rest store).2)
  | .set key value :: rest, store => batch rest (Function.update store key (some value))
  | .delete key :: rest, store => batch rest (Function.update store key none)

inductive QueueError where
  | valueNotSet
  | invalidValue
  | queueIsFull
  | storage (text : String)
  | encoding (text : String)
  | proto (text : String)
  | deletingItem (cause : QueueError)
  | updatingDispatched (cause : QueueError)
  deriving DecidableEq

inductive Call where
  | get (key : Key)
  | set (key : Key) (value : Bytes)
  | batch (operations : List Operation)
  | close
  | signalSpace
  deriving DecidableEq

abbrev Reply := Except QueueError (List (Option Bytes))

def replyError : Reply → Option QueueError
  | .error err => some err
  | .ok _ => none

abbrev StorageM := Program Call Reply

structure Client where
  store : Store
  /-- Batches that took effect. -/
  commits : Nat
  /-- Calls of Close. -/
  closes : Nat
  late : Nat
  /-- Calls of hasMoreSpace.Signal. -/
  signals : Nat

def Client.fresh : Client := ⟨fun _ => none, 0, 0, 0, 0⟩

def Call.fallible : Call → Bool
  | .get _ | .set _ _ | .batch _ | .close => true
  | .signalSpace => false

def Client.note (client : Client) : Call → Client
  | .close => { client with closes := client.closes + 1 }
  | .signalSpace => { client with signals := client.signals + 1 }
  | .get _ | .set _ _ | .batch _ =>
    { client with late := if client.closes = 0 then client.late else client.late + 1 }

def Client.perform (client : Client) : Call → Client × Reply
  | .get key => (client, .ok [client.store key])
  | .set key value => ({ client with store := Function.update client.store key (some value) }, .ok [])
  | .batch operations =>
    ({ client with store := (Queue.batch operations client.store).1, commits := client.commits + 1 },
      .ok (Queue.batch operations client.store).2)
  | .close | .signalSpace => (client, .ok [])

def serve (call : Call) (client : Client) : Client × Reply := (client.note call).perform call

/-- A storage that may refuse any call, before or after the call took effect. -/
inductive Answers : Call → Client → Client → Reply → Prop where
  | served (call : Call) (client : Client) :
      Answers call client (serve call client).1 (serve call client).2
  | refused (call : Call) (client : Client) (text : String) (fallible : call.fallible = true) :
      Answers call client (client.note call) (.error (.storage text))
  | lost (call : Call) (client : Client) (text : String) (fallible : call.fallible = true) :
      Answers call client (serve call client).1 (.error (.storage text))

def refusal (text : String) : Call → Reply := fun _ => .error (.storage text)

end CollectorFormal.Queue
