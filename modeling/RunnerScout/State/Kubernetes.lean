import RunnerScout.Lifecycle.Cell
import RunnerScout.Operator.Calls

/-! # Allocation records in ConfigMaps

`state.Kubernetes`: one ConfigMap per allocation, replaced only at the
`resourceVersion` it was read at.  Records with cloud dependencies are stored under
a second key, so that a reader that does not know them fails instead of dropping
them.
-/

namespace RunnerScout.State

open Interaction Program Lifecycle Operator

structure Kubernetes where
  owner : String

def ownerLabel : String := "runnerscout/owner"

def kindLabel : String := "runnerscout/kind"

/-- Decode the value found under one of the two keys. -/
def decodeValue (cm : ConfigMap) (versioned : Bool) : Document → Except GoError Allocation
  | .allocation a =>
    if a.id ≠ cm.name then .error (.new "allocation identity mismatch")
    else if versioned ≠ decide (a.resources.length > 0) then
      .error (.new "allocation dependency format mismatch")
    else
      match mergeResources [] a.resources with
      | .error e => .error e
      | .ok _ => .ok a
  | _ => .error (.new "invalid allocation data")

def decodeAllocation (cm : ConfigMap) : Except GoError Allocation :=
  match cm.data.lookup "allocation", cm.data.lookup "allocation-v2" with
  | some legacy, none => decodeValue cm false legacy
  | none, some current => decodeValue cm true current
  | _, _ => .error (.new "missing or ambiguous allocation format")

namespace Kubernetes

variable (s : Kubernetes)

def owns (cm : ConfigMap) : Bool := (cm.labels.lookup ownerLabel).getD "" = s.owner

def load (id : String) : Program Api (Except GoError Allocation) := do
  match ← ask (S := Api) (.getMap id) with
  | .error e => return .error e
  | .ok cm =>
    if !s.owns cm then return .error (.new "state ownership mismatch")
    else
      match decodeAllocation cm with
      | .error e => return .error e
      | .ok a =>
        if a.id ≠ id then return .error (.new "allocation identity mismatch")
        else return .ok { a with revision := cm.resourceVersion }

/-- The ConfigMap a record is stored as. -/
def encode (a : Allocation) (revision : Revision) : ConfigMap where
  name := a.id
  resourceVersion := revision
  labels := ((∅ : GoMap String String).insert ownerLabel s.owner).insert kindLabel "allocation"
  data := (∅ : GoMap String Document).insert
    (if a.resources.length > 0 then "allocation-v2" else "allocation") (.allocation a)

/-- The part of `Save` after the content checks. -/
def write (a : Allocation) (revision : Revision) : Program Api (Except GoError Allocation) := do
  match mergeResources [] a.resources with
  | .error e => return .error e
  | .ok (resources, _) =>
    let a := { a with resources := resources, revision := 0 }
    let cm := s.encode a revision
    let out ← if revision = 0 then ask (S := Api) (.createMap cm) else ask (S := Api) (.updateMap cm)
    match out with
    | .error e =>
      if errorIs (some e) .conflict || errorIs (some e) .alreadyExists then return .error errConflict
      else return .error e
    | .ok out => return .ok { a with revision := out.resourceVersion }

def save (a : Allocation) (revision : Revision) : Program Api (Except GoError Allocation) := do
  if revision = 0 then s.write a revision
  else
    match ← ask (S := Api) (.getMap a.id) with
    | .error e => return .error e
    | .ok current =>
      if !s.owns current then return .error (.new "state ownership mismatch")
      else if current.resourceVersion ≠ revision then return .error errConflict
      else
        match decodeAllocation current with
        | .error e => return .error e
        | .ok previous =>
          match incomingResources previous a with
          | .error e => return .error e
          | .ok resources => s.write { a with resources := resources } revision

def delete (id : String) : Program Api (Option GoError) := do
  match ← ask (S := Api) (.getMap id) with
  | .error e => if errorIs (some e) .notFound then return none else return some e
  | .ok cm =>
    if !s.owns cm then return some (.new "state ownership mismatch")
    else
      let e ← ask (S := Api) (.deleteMap id)
      if errorIs e .notFound then return none else return e

/-- The loop of `List` over the ConfigMaps found. -/
def decodeAll : List ConfigMap → Except GoError (List Allocation)
  | [] => .ok []
  | cm :: rest =>
    match decodeAllocation cm with
    | .error e => .error e
    | .ok a =>
      if a.id ≠ cm.name then .error (.new "allocation identity mismatch")
      else
        match decodeAll rest with
        | .error e => .error e
        | .ok out => .ok ({ a with revision := cm.resourceVersion } :: out)

def list : Program Api (Except GoError (List Allocation)) := do
  match ← ask (S := Api) (.listMaps s.owner "allocation") with
  | .error e => return .error e
  | .ok items => return decodeAll items

end Kubernetes

end RunnerScout.State
