import RunnerScout.Configapi.Compile
import RunnerScout.Interaction.Fallible

/-! # The calls of the configuration runtime

Every call the runtime makes to its surroundings: the Kubernetes API in its own
namespace, and the workers it builds, starts, watches and joins.  A worker is an
operator of its own; the runtime knows it by its handle.  `rangeOrder` is the choice Go
makes at run time, the order of a `range` over a map.
-/

namespace RunnerScout.Configapi

open Interaction

structure SecretRevision where
  name : String
  uid : String
  resourceVersion : String
  contentHash : String
deriving DecidableEq

/-- Referenced Secret keys only, never entire Secrets. -/
structure Credentials where
  gitHub : List UInt8 := []
  providers : GoMap String (GoMap String (List UInt8)) := ∅
  revisions : List SecretRevision := []

inductive WorkerMode where
  | session
  | recovery
  | cleanup
deriving DecidableEq, Repr

/-- A worker that was started.  Its handle stands for the worker, its channel, its
    error and its cleanup function. -/
structure ActiveWorker where
  handle : Nat
  key : String
  uid : String
  mode : WorkerMode
deriving DecidableEq

inductive Call where
  | get (resource space name : String)
  | updateRoot (root : Unstructured)
  | updateStatus (root : Unstructured)
  | getSecret (name : String)
  | getMap (name : String)
  | createMap (cm : ConfigMap)
  | updateMap (cm : ConfigMap)
  /-- The handle is the next one of the process. -/
  | newWorker (handle : Nat) (resolved : Resolved) (credentials : Credentials) (mode : WorkerMode)
  | start (worker : ActiveWorker)
  /-- Look at the worker's channel: nothing while it runs, its error once it returned. -/
  | done (handle : Nat)
  /-- Cancel a worker and wait for it. -/
  | join (handle : Nat)
  | cleanup (handle : Nat)
  | pauseAdmissions (handle : Nat) (paused : Bool)
  | drain (handle : Nat)
  | drained (handle : Nat)
  | workerReady (handle : Nat)
  | setReady (ready : Bool)
  | now
  | rangeOrder (keys : List String)

abbrev Answer : Call → Type
  | .get _ _ _ => Except GoError Unstructured
  | .updateRoot _ | .updateStatus _ | .newWorker _ _ _ _ | .createMap _ | .updateMap _ | .cleanup _ => Option GoError
  | .getSecret _ => Except GoError Secret
  | .getMap _ => Except GoError ConfigMap
  | .start _ | .join _ | .pauseAdmissions _ _ | .drain _ | .setReady _ => Unit
  | .done _ => Option (Option GoError)
  | .drained _ => Except GoError Bool
  | .workerReady _ => Bool
  | .now => Time
  | .rangeOrder _ => List String

abbrev Calls : Signature := ⟨Call, Answer⟩

abbrev Fallible (α : Type) := Attempt Calls GoError α

def ask (call : Call) : Program Calls (Answer call) := Program.ask (S := Calls) call

def notFound : GoError := ⟨[.notFound], "not found"⟩

/-- Nothing is there, no worker returns, and every write is made. -/
def quiet : (call : Call) → Answer call
  | .get _ _ _ | .getSecret _ | .getMap _ => .error notFound
  | .updateRoot _ | .updateStatus _ | .newWorker _ _ _ _ | .createMap _ | .updateMap _ | .cleanup _ => none
  | .start _ | .join _ | .pauseAdmissions _ _ | .drain _ | .setReady _ => ()
  | .done _ => none
  | .drained _ => .ok false
  | .workerReady _ => true
  | .now => 0
  | .rangeOrder keys => keys

end RunnerScout.Configapi
