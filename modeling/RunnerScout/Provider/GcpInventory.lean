import RunnerScout.Provider.Cloud

/-! # The Compute Engine inventory of one allocation

An allocation owns at most one virtual machine and its boot disk, both under its own
name.  `observeGCP` first asks for the operation that creates them, since their
absence alone says nothing about a request that has not been executed yet.
-/

namespace RunnerScout.Provider

open Interaction Program Lifecycle

structure GcpInventory where
  vm : Option GcpInstance := none
  disk : Option GcpDisk := none

def missingGCP (e : CloudError) : Bool := e.api && e.status = 404

section Gcp

variable (p : Command) (a : Allocation)

def gcpResource (kind name : String) : String :=
  "projects/" ++ p.config.project ++ "/zones/" ++ a.offering.zone ++ "/" ++ kind ++ "/" ++ name

/-- An absolute link is compared by its path, any other one as it is. -/
def gcpMatches (link resource : String) : Bool :=
  match p.library.parseURL link with
  | none => false
  | some u =>
    if u.scheme ≠ "" then
      if u.scheme ≠ "https" ∨ (u.host ≠ "www.googleapis.com" ∧ u.host ≠ "compute.googleapis.com")
          ∨ u.rawQuery ≠ "" ∨ u.fragment ≠ "" then
        false
      else u.path = "/compute/v1/" ++ resource
    else link = resource

def gcpRequestID (action : String) : String :=
  p.library.newSHA1 ("runnerscout/" ++ p.config.owner ++ "/" ++ gcpResource p a "instances" a.id ++ "/" ++ action)

def ownsGCP (labels : GoMap String String) : Bool :=
  (labels.lookup "runnerscout-owner").getD "" = p.config.owner
    && (labels.lookup "runnerscout-operation").getD "" = a.id

/-! ## The inventory -/

/-- The one disk a virtual machine of the allocation has. -/
def gcpBootDisk (disks : List (Option GcpAttachedDisk)) : Bool :=
  match disks with
  | [some disk] => disk.boot && disk.autoDelete && gcpMatches p disk.source (gcpResource p a "disks" a.id)
  | _ => false

/-- The checks of a virtual machine that was asked for. -/
def gcpVM : Except CloudError GcpInstance → Except GoError (Option GcpInstance)
  | .error e =>
    if missingGCP e then .ok none else .error (.new ("GCP VM inventory unavailable: " ++ e.text))
  | .ok vm =>
    if vm.name ≠ a.id ∨ vm.id = 0 ∨ !gcpMatches p vm.selfLink (gcpResource p a "instances" a.id)
        ∨ !ownsGCP p a vm.labels then
      .error (.new "GCP VM ownership unconfirmed")
    else if !gcpBootDisk p a vm.disks then .error (.new "GCP VM disk binding changed; cleanup retained")
    else .ok (some vm)

/-- The checks of a disk that was asked for. -/
def gcpDisk : Except CloudError GcpDisk → Except GoError (Option GcpDisk)
  | .error e =>
    if missingGCP e then .ok none else .error (.new ("GCP disk inventory unavailable: " ++ e.text))
  | .ok disk =>
    if disk.name ≠ a.id ∨ disk.id = 0 ∨ !gcpMatches p disk.selfLink (gcpResource p a "disks" a.id)
        ∨ !ownsGCP p a disk.labels then
      .error (.new "GCP disk ownership unconfirmed")
    else if disk.users.any fun user => !gcpMatches p user (gcpResource p a "instances" a.id) then
      .error (.new "GCP disk attached outside its allocation")
    else .ok (some disk)

def gcpInventory : Program CloudCalls (Except GoError GcpInventory) := do
  if !p.gcpService then return .error (.new "GCP credential scope unavailable")
  else
    match gcpVM p a (← ask (S := CloudCalls) (.gcpInstance a.offering.zone a.id)) with
    | .error e => return .error e
    | .ok vm =>
      match gcpDisk p a (← ask (S := CloudCalls) (.gcpDisk a.offering.zone a.id)) with
      | .error e => return .error e
      | .ok disk => return .ok ⟨vm, disk⟩

/-! ## Operations -/

/-- The create operation of the allocation, over and done with. -/
def gcpCreateDone (op : Option GcpOperation) : Bool :=
  match op with
  | none => false
  | some op =>
    op.name ≠ "" && op.clientOperationID = gcpRequestID p a "create" && op.operationType = "insert"
      && gcpMatches p op.targetLink (gcpResource p a "instances" a.id) && op.status = "DONE"

/-- The operations of one page, added to those counted before. -/
def countOperations : List (Option GcpOperation) → Nat → Except GoError Nat
  | [], count => .ok count
  | op :: rest, count =>
    if count + 1 > 1 ∨ !gcpCreateDone p a op then .error (.new "GCP create commitment unconfirmed")
    else countOperations rest (count + 1)

def countPages : List (Except CloudError GcpOperationList) → Nat → Except GoError Nat
  | [], count => .ok count
  | .error e :: _, _ => .error (.new e.text)
  | .ok page :: rest, count =>
    if page.kind ≠ "compute#operationList" then .error (.new "invalid GCP operation inventory")
    else
      match countOperations p a page.items count with
      | .error e => .error e
      | .ok count => countPages rest count

def gcpCreateTerminal : Program CloudCalls (Option GoError) := do
  if !p.gcpService then return some (.new "GCP credential scope unavailable")
  else
    let pages ← ask (S := CloudCalls)
      (.gcpOperations a.offering.zone (.clientOperation (gcpRequestID p a "create")))
    match countPages p a pages 0 with
    | .error _ => return some (.new "GCP create commitment unconfirmed")
    | .ok count =>
      if count = 0 ∧ a.resourceID = "" then return some (.new "GCP create commitment unconfirmed")
      else return none

/-- An operation by which Compute Engine itself ended the virtual machine. -/
def gcpPreempted (op : Option GcpOperation) : Bool :=
  match op with
  | none => false
  | some op =>
    op.operationType = "compute.instances.preempted" && gcpMatches p op.targetLink (gcpResource p a "instances" a.id)

/-- Whether the pages, all of them valid, hold such an operation. -/
def preemptedPages : List (Except CloudError GcpOperationList) → Bool → Bool
  | [], found => found
  | .error _ :: _, _ => false
  | .ok page :: rest, found =>
    if page.kind ≠ "compute#operationList" then false
    else preemptedPages rest (found || page.items.any (gcpPreempted p a))

def gcpConfirmedPreemption : Program CloudCalls Bool := do
  if !p.gcpService then return false
  else
    let pages ← ask (S := CloudCalls)
      (.gcpOperations a.offering.zone (.operationType "compute.instances.preempted"))
    return preemptedPages p a pages false

/-! ## The observation -/

def observeGCP : Program CloudCalls (Observation × Option GoError) := do
  if a.resourceID ≠ "" ∧ a.resourceID ≠ a.id then
    return ({}, some (.new "GCP durable resource identity mismatch"))
  else
    match ← gcpCreateTerminal p a with
    | some e => return ({}, some e)
    | none =>
      match ← gcpInventory p a with
      | .error e => return ({}, some e)
      | .ok inventory =>
        let present := inventory.vm.isSome || inventory.disk.isSome
        -- preemptions are looked up only for what may have been preempted
        if !present && a.offering.spot then
          let interrupted ← gcpConfirmedPreemption p a
          return ({ known := true, present := present, interrupted := interrupted, resourceID := a.id }, none)
        else return ({ known := true, present := present, resourceID := a.id }, none)

end Gcp

end RunnerScout.Provider
