import Mathlib.Data.List.Sort
import RunnerScout.Placement

/-! # The durable allocation record

The record one controller persists for each virtual machine it may create, the
receipts and observations its providers hand back, and `MergeResources`, which
only ever adds to the cloud dependencies a record has seen.
-/

namespace RunnerScout.Lifecycle

open Placement

/-- The phase is a string in the record; `other` is any text the sources do not name. -/
inductive Phase where
  | pending
  | creating
  | running
  | deleting
  | deleted
  | timedOut
  | other (text : String)
deriving DecidableEq, Repr

/-- Deleted and timed-out records are never stepped again. -/
def Phase.terminal : Phase → Bool
  | .deleted | .timedOut => true
  | _ => false

structure ResourceReference where
  kind : String
  id : String
  uid : String := ""
deriving DecidableEq, Repr

/-- A store revision; `0` is the empty string of a record that was never stored. -/
abbrev Revision := Nat

structure Allocation where
  resources : List ResourceReference := []
  rejectedAt : GoMap String Time := ∅
  completed : Bool := false
  id : String := ""
  revision : Revision := 0
  phase : Phase := .other ""
  deadline : Time := 0
  attempts : Int := 0
  maxAttempts : Int := 0
  offering : Offering := {}
  outcomes : GoMap String Outcome := ∅
  catalog : Catalog := {}
  requirements : Requirements := {}
  resourceID : String := ""
  ready : Bool := false
  retire : Bool := false
  condition : String := ""
  runID : Int := 0
  owner : String := ""
  repo : String := ""
  scaleSetJobID : String := ""
  retryProcessed : Bool := false
  networkProfile : String := ""
  wireGuardPublicKey : List UInt8 := []
  wireGuardOverlayAddress : String := ""
  wireGuardEndpoint : String := ""
  wireGuardPollTokenHash : List UInt8 := []
  terminalAt : Time := 0

structure Observation where
  resources : List ResourceReference := []
  present : Bool := false
  known : Bool := false
  interrupted : Bool := false
  resourceID : String := ""
deriving DecidableEq, Repr

/-- The absence a provider confirmed. -/
def Observation.absent (ob : Observation) (e : Option GoError) : Prop :=
  e = none ∧ ob.known = true ∧ ob.present = false

structure Creation where
  resourceID : String := ""
  resources : List ResourceReference := []
  wireGuardPublicKey : List UInt8 := []
  wireGuardPollTokenHash : List UInt8 := []
  wireGuardEndpoint : String := ""
deriving DecidableEq, Repr

def errConflict : GoError := ⟨[.conflict], "state revision conflict"⟩

def errCapacity : GoError := ⟨[.capacity], "definitive capacity rejection"⟩

def errNoEffect : GoError := ⟨[.noEffect], "create preparation failed without cloud effects"⟩

/-- A receipt that names nothing in the cloud. -/
def Creation.empty (creation : Creation) : Bool :=
  creation.resourceID = "" && creation.resources.length = 0

/-- A create call ended in a definitive rejection and named nothing in the cloud. -/
def definitiveRejection (creation : Creation) (e : Option GoError) : Bool :=
  (errorIs e .noEffect || errorIs e .capacity) && creation.empty

/-- The check a pending record must pass before it may be created again. -/
def Allocation.retainsResources (a : Allocation) : Bool :=
  a.resourceID ≠ "" || a.resources.length > 0

/-! ## Merging resource references -/

def ResourceReference.invalid (r : ResourceReference) : Bool :=
  r.kind = "" || r.kind.utf8ByteSize > 64 || !onlyFrom "abcdefghijklmnopqrstuvwxyz0123456789-./" r.kind
    || r.id = "" || r.id.utf8ByteSize > 2048 || !spaceTrimmed r.id || containsAny r.id "\x00\r\n\t"
    || r.uid.utf8ByteSize > 256 || !spaceTrimmed r.uid || containsAny r.uid "\x00\r\n\t"

/-- The two maps the loop of `MergeResources` fills. -/
structure Merge where
  set : List ResourceReference := []
  identities : GoMap (String × String) String := ∅

/-- One turn of the loop. -/
def Merge.add (m : Merge) (r : ResourceReference) : Except GoError Merge :=
  if r.invalid then .error (.new "invalid cloud dependency reference")
  else if (m.identities.lookup (r.kind, r.id)).any (· ≠ r.uid) then
    .error (.new "cloud dependency generation changed or discarded")
  else
    let set := if m.set.contains r then m.set else m.set ++ [r]
    if set.length > 64 then .error (.new "cloud dependency reference limit exceeded")
    else .ok ⟨set, m.identities.insert (r.kind, r.id) r.uid⟩

def mergeLoop : List ResourceReference → Merge → Except GoError Merge
  | [], m => .ok m
  | r :: rest, m =>
    match m.add r with
    | .error e => .error e
    | .ok m => mergeLoop rest m

/-- The order of a merged list; identities are distinct there. -/
def ResourceReference.before (a b : ResourceReference) : Prop :=
  a.kind < b.kind ∨ (a.kind = b.kind ∧ a.id ≤ b.id)

instance : DecidableRel ResourceReference.before := fun a b =>
  inferInstanceAs (Decidable (a.kind < b.kind ∨ (a.kind = b.kind ∧ a.id ≤ b.id)))

def mergeResources (current observed : List ResourceReference) :
    Except GoError (List ResourceReference × Bool) :=
  match mergeLoop (current ++ observed) {} with
  | .error e => .error e
  | .ok m =>
    let merged := m.set.insertionSort ResourceReference.before
    .ok (merged, current ≠ merged)

@[simp] theorem mergeResources_nil : mergeResources [] [] = .ok ([], false) := rfl

end RunnerScout.Lifecycle
