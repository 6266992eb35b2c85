/-
  Requests to a server: how they may fail, and the messages of `rpc_inference`, `ExpertRequest` and
  `ExpertResponse` with the metadata that the two sides put in.

  Tensors are serialized without loss and come with their dtype; what matters of it is whether a
  tensor holds indices.  The uid of a request names the blocks of a span.
-/
import Drift.Lib.Tensor
import Drift.Python

namespace Drift

/-- The answer of a server. -/
def remoteCall {β : Type} (failure : Option PyExc) (answer : Except PyExc β) : Except PyExc β :=
  match failure with
  | none => answer
  | some exc => .error exc

/-- A tensor of a message. -/
inductive WireTensor (α : Type) where
  | floating (tensor : Tensor α)
  | int64 (ids : List Int)

/-- One of `next_servers`: a peer, the session it has open for the same client, and its blocks. -/
structure NextServer where
  peerId : Nat
  sessionId : Nat
  start : Nat
  stop : Nat
deriving DecidableEq

/-- The metadata of an inference request.  `max_length` is in the first one only. -/
structure RequestMetadata (κ : Type) where
  sessionId : Nat
  stepId : Option Nat
  sharedKvKeys : List κ
  maxLength : Option Nat
  startFromPosition : Option Int
  nextServers : List NextServer
  pushed : Bool
  argsStructure : Option (List Nat)

/-- An inference request for the blocks `[start, stop)`. -/
structure ExpertRequest (κ α : Type) where
  start : Nat
  stop : Nat
  tensors : List (WireTensor α)
  metadata : RequestMetadata κ

/-- The response: hidden states, and the keys and values of donors with their layer types. -/
structure ExpertResponse (κ α : Type) where
  tensors : List (Tensor α)
  sharedKvKeys : List κ

end Drift
