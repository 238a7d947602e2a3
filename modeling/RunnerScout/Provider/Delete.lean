import RunnerScout.Provider.Create

/-! # Deleting the resources of an allocation

One call deletes at most one resource: it reads everything again, and goes on only
with what the record it was given already names.
-/

namespace RunnerScout.Provider

open Interaction Program Lifecycle

section Delete

variable (p : Command) (a : Allocation)

/-! ## EC2 -/

/-- `TerminateInstances`, and whether its answer confirms it. -/
def awsTerminate (id : String) : Program AdapterCalls (Option GoError) := do
  match ← ask (S := AdapterCalls) (.terminateInstances [id]) with
  | .error e => return some (.new ("AWS termination commitment unknown: " ++ e.text))
  | .ok (some [change]) =>
    if change.instanceID ≠ id ∨
        (change.currentState ≠ some "shutting-down" ∧ change.currentState ≠ some "terminated") then
      return some (.new "AWS termination identity or state unconfirmed")
    else return none
  | .ok _ => return some (.new "AWS termination commitment unknown")

/-- The loop over the interfaces, in the order of their names. -/
def awsDeleteInterfaces : List (String × AwsInterface) → Program AdapterCalls (Option GoError)
  | [] => return none
  | (id, network) :: rest => do
    if network.attachment.isSome then awsDeleteInterfaces rest
    else if network.status = "available" then
      match ← ask (S := AdapterCalls) (.deleteNetworkInterface id) with
      | none => return none
      | some e =>
        if awsMissing e "InvalidNetworkInterfaceID.NotFound" then return none
        else return some (.new ("AWS network interface deletion commitment unknown: " ++ e.text))
    else if network.status = "in-use" then awsDeleteInterfaces rest
    else return some (.new "AWS network interface state unknown")

/-- The loop over the volumes, in the order of their names, and then over the interfaces. -/
def awsDeleteVolumes (interfaces : List (String × AwsInterface)) :
    List (String × AwsVolume) → Program AdapterCalls (Option GoError)
  | [] => awsDeleteInterfaces interfaces
  | (id, volume) :: rest => do
    if volume.attachments.length > 0 then awsDeleteVolumes interfaces rest
    else if volume.state = "available" then
      match ← ask (S := AdapterCalls) (.deleteVolume id) with
      | none => return none
      | some e =>
        if awsMissing e "InvalidVolume.NotFound" then return none
        else return some (.new ("AWS volume deletion commitment unknown: " ++ e.text))
    else if ["creating", "in-use", "deleting", "deleted"].contains volume.state then awsDeleteVolumes interfaces rest
    else return some (.new "AWS volume state unknown")

/-- The entries of a map in the order of its sorted keys. -/
def byName {V : Type} (m : GoMap String V) : List (String × V) :=
  (m.entries.map fun entry => (entry.1, entry.2)).insertionSort fun x y => x.1 ≤ y.1

/-- What is deleted once the inventory is found to be recorded. -/
def awsDeleteOne (inventory : AwsInventory) (observed : Observation) : Program AdapterCalls (Option GoError) :=
  match inventory.vm with
  | some i =>
    if i.state ≠ some "terminated" then
      if i.state = some "shutting-down" then return none else awsTerminate observed.resourceID
    else awsDeleteVolumes (byName inventory.interfaces) (byName inventory.volumes)
  | none => awsDeleteVolumes (byName inventory.interfaces) (byName inventory.volumes)

def deleteAWS : Program AdapterCalls (Option GoError) := do
  match ← ask (S := AdapterCalls) (.read (.awsSession a.offering.region)) with
  | some e => return some e
  | none =>
    match ← reading (awsInventory p a) with
    | .error e => return some e
    | .ok inventory =>
      match inventory.observation a with
      | (_, some e) => return some e
      | (observed, none) =>
        match mergeResources a.resources observed.resources with
        | .ok (_, false) =>
          if !observed.present then return none else awsDeleteOne inventory observed
        | _ => return some (.new "AWS dependencies require a durable checkpoint before deletion")

/-! ## Compute Engine -/

/-- The sixty seconds of a delete call. -/
def deletePolls : Nat := 60

/-- What is made of the answer to a delete request. -/
def gcpDeleted (action kind : String) : Except CloudError GcpOperation → Program AdapterCalls (Option GoError)
  | .error e =>
    if missingGCP e then return none else return some (.new ("GCP deletion commitment unknown: " ++ e.text))
  | .ok op => waitGCPOperation p a action kind a.id deletePolls "" op

def deleteGCP : Program AdapterCalls (Option GoError) := do
  match ← reading (gcpCreateTerminal p a) with
  | some e => return some e
  | none =>
    match ← reading (gcpInventory p a) with
    | .error e => return some e
    | .ok { vm := some _, disk := _ } =>
      let reply ← ask (S := AdapterCalls)
        (.gcpDeleteInstance a.offering.zone a.id (gcpRequestID p a "delete-vm"))
      gcpDeleted p a "delete-vm" "instances" reply
    | .ok { vm := none, disk := some disk } =>
      if disk.users.length ≠ 0 then return some (.new "GCP disk attachment remains; cleanup retained")
      else
        let reply ← ask (S := AdapterCalls)
          (.gcpDeleteDisk a.offering.zone a.id (gcpRequestID p a "delete-disk"))
        gcpDeleted p a "delete-disk" "disks" reply
    | .ok { vm := none, disk := none } => return none

/-! ## Azure -/

def azureVMDeletionBindings (vm : Option AzureVMProperties) : Option GoError :=
  match vm with
  | some { vmID := _, provisioningState := _, dataDisks := 0, imageID := _, osDiskName := _,
           osDiskCreateOption := _, osDiskID := disk, interfaceIDs := [network] } =>
    if equalFold disk (azureID p "Microsoft.Compute/disks" (a.id ++ "-os"))
        ∧ equalFold network (azureID p "Microsoft.Network/networkInterfaces" (a.id ++ "-nic")) then
      none
    else some (.new "Azure VM has unconfirmed deletion dependencies")
  | _ => some (.new "Azure VM has unconfirmed deletion dependencies")

/-- The version of the interface a resource is deleted through, if it may be. -/
def azureDeleteVersion (resource : AzureResource) : Option String :=
  let type := lowerCase resource.type
  if type = "microsoft.compute/virtualmachines" then some "2024-07-01"
  else if type = "microsoft.compute/disks" then some "2024-03-02"
  else if type = "microsoft.network/networkinterfaces" then some "2024-05-01"
  else none

/-- `AzureSDK.delete`. -/
def azureDelete (resource : AzureResource) : Program AdapterCalls (Option GoError) := do
  match azureDeleteVersion resource with
  | none => return some (.new "Azure deletion commitment unknown: unsupported Azure cleanup resource")
  | some version =>
    match ← ask (S := AdapterCalls) (.beginDelete resource.id version) with
    | none => return none
    | some e =>
      if missingAzureResource e then return none
      else return some (.new ("Azure deletion commitment unknown: " ++ e.text))

/-- The resources of one kind, then of the next: the first one attached to nothing is deleted. -/
def azureDeleteOne : List (String × AzureResource) → Program AdapterCalls (Option GoError)
  | [] => return none
  | (kind, resource) :: rest =>
    if !equalFold resource.type kind then azureDeleteOne rest
    else if resource.managedBy ≠ "" then azureDeleteOne rest
    else if equalFold kind "Microsoft.Compute/virtualMachines" then
      match azureVMDeletionBindings p a resource.vm with
      | some e => return some e
      | none => azureDelete resource
    else azureDelete resource

def azureDeletionOrder (resources : List AzureResource) : List (String × AzureResource) :=
  ["Microsoft.Compute/virtualMachines", "Microsoft.Network/networkInterfaces", "Microsoft.Compute/disks"].flatMap
    fun kind => resources.map fun resource => (kind, resource)

def deleteAzure : Program AdapterCalls (Option GoError) := do
  match azureReferences p a with
  | .error e => return some e
  | .ok _ =>
    match ← reading (azureTerminal a) with
    | .ok true =>
      match ← reading (azureInventory p a false) with
      | .error e => return some e
      | .ok resources =>
        match azureObservation p a resources with
        | .error e => return some e
        | .ok observed =>
          match mergeResources a.resources observed.resources with
          | .ok (_, false) => azureDeleteOne p a (azureDeletionOrder resources)
          | _ => return some (.new "Azure dependencies require durable checkpoint before deletion")
    | _ => return some (.new "Azure deployment still active; deletion deferred")

/-! ## The adapter -/

namespace Command

def delete : Program AdapterCalls (Option GoError) := do
  match validateName a.id with
  | some e => return some e
  | none =>
    match p.validate with
    | some e => return some e
    | none =>
      if p.config.kind = "aws" then deleteAWS p a
      else if p.config.kind = "azure" then deleteAzure p a
      else
        match ← reading (p.observe a) with
        | (_, some e) => return some e
        | (ob, none) =>
          if !ob.known then return some (.new "resource inventory unknown")
          else if !ob.present then return none
          else if a.resourceID ≠ "" ∧ a.resourceID ≠ ob.resourceID then return some (.new "resource identity mismatch")
          else deleteGCP p { a with resourceID := ob.resourceID }

end Command

end Delete

end RunnerScout.Provider
