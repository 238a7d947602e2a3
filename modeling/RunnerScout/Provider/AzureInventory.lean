import RunnerScout.Provider.Cloud

/-! # The Azure inventory of one allocation

An allocation owns at most three Azure resources, whose paths are known before they
are created: a virtual machine, its network interface and its disk.  `observeAzure`
first asks for the deployment that creates them, then reads all three, and
`reconcileAzureCreation` also completes the ownership tags of a disk.
-/

namespace RunnerScout.Provider

open Interaction Program Lifecycle

structure AzureResourceSpec where
  kind : String
  resourceType : String
  name : String
  version : String
deriving DecidableEq, Repr

def azureSpecs (a : Allocation) : List AzureResourceSpec :=
  [⟨"azure-vm", "Microsoft.Compute/virtualMachines", a.id, "2024-07-01"⟩,
   ⟨"azure-network-interface", "Microsoft.Network/networkInterfaces", a.id ++ "-nic", "2024-05-01"⟩,
   ⟨"azure-disk", "Microsoft.Compute/disks", a.id ++ "-os", "2024-03-02"⟩]

structure AzureResource where
  id : String
  name : String
  type : String
  tags : GoMap String String := ∅
  uid : String := ""
  managedBy : String := ""
  vm : Option AzureVMProperties := none
  privateIP : String := ""

/-- A 404 with one of the codes that mean the resource does not exist. -/
def missingAzureResource (e : CloudError) : Bool :=
  e.api && e.status = 404 && (e.code = "ResourceNotFound" || e.code = "DeploymentNotFound")

def azureResourceMissing (e : CloudError) : Bool := e.api && e.status = 404 && e.code = "ResourceNotFound"

/-- Tag names are case-insensitive: duplicate spellings are refused and the ownership
    keys are put in their canonical one. -/
def azureTagSnapshot (tags : GoMap String (Option String)) : Except GoError (GoMap String String) :=
  let rec go : List (Sigma fun _ : String => Option String) → List String → GoMap String String →
      Except GoError (GoMap String String)
    | [], _, result => .ok result
    | ⟨name, value⟩ :: rest, seen, result =>
      let key := lowerCase name
      match value with
      | none => .error (.new "Azure disk tag inventory ambiguous or incomplete")
      | some value =>
        if seen.contains key then .error (.new "Azure disk tag inventory ambiguous or incomplete")
        else
          let name := if key = "runnerscout-owner" ∨ key = "runnerscout-operation" then key else name
          go rest (key :: seen) (result.insert name value)
  go tags.entries [] ∅

/-- `net.JoinHostPort` with the fixed WireGuard port. -/
def wireGuardEndpoint (privateIP : String) : String :=
  if privateIP = "" then ""
  else if containsAny privateIP ":" then "[" ++ privateIP ++ "]:51820"
  else privateIP ++ ":51820"

section Azure

variable (p : Command)

def azureID (kind name : String) : String :=
  "/subscriptions/" ++ p.config.subscription ++ "/resourceGroups/" ++ p.config.resourceGroup ++
    "/providers/" ++ kind ++ "/" ++ name

def uuidNil : String := "00000000-0000-0000-0000-000000000000"

/-- A parsed identifier that is not the nil one. -/
def uuidValue (s : String) : Option String :=
  match p.library.parseUUID s with
  | some uid => if uid = uuidNil then none else some uid
  | none => none

def azureUUID (value : String) : Bool := (uuidValue p value).isSome

def azureVM (a : Allocation) : String := azureID p "Microsoft.Compute/virtualMachines" a.id

def azureIdentity (resource : AzureGeneric) (kind name : String) : Bool :=
  equalFold resource.id (azureID p kind name) && equalFold resource.type kind && equalFold resource.name name

/-! ## Recorded references -/

/-- Add one recorded reference to those of the allocation's specs it matches. -/
def addReference (a : Allocation) (reference : ResourceReference) :
    List AzureResourceSpec → Bool → GoMap String ResourceReference →
      Except GoError (Bool × GoMap String ResourceReference)
  | [], valid, result => .ok (valid, result)
  | spec :: rest, valid, result =>
    if reference.kind ≠ spec.kind then addReference a reference rest valid result
    else if uuidValue p reference.uid ≠ some reference.uid
        ∨ !equalFold reference.id (azureID p spec.resourceType spec.name) then
      .error (.new "invalid Azure durable resource identity")
    else if (result.lookup reference.kind).isSome then .error (.new "duplicate Azure resource identity")
    else addReference a reference rest true (result.insert reference.kind reference)

def addReferences (a : Allocation) : List ResourceReference → GoMap String ResourceReference →
    Except GoError (GoMap String ResourceReference)
  | [], result => .ok result
  | reference :: rest, result =>
    match addReference p a reference (azureSpecs a) false result with
    | .error e => .error e
    | .ok (false, _) => .error (.new "unsupported Azure dependency kind")
    | .ok (true, result) => addReferences a rest result

def azureReferences (a : Allocation) : Except GoError (GoMap String ResourceReference) :=
  if a.resourceID ≠ "" ∧ !equalFold a.resourceID (azureVM p a) then
    .error (.new "Azure allocation VM identity differs")
  else
    match mergeResources [] a.resources with
    | .error e => .error e
    | .ok (references, _) => addReferences p a references ∅

def azureOwnership (tags : GoMap String String) (a : Allocation) (allowUntagged : Bool) : Option GoError :=
  if [("runnerscout-owner", p.config.owner), ("runnerscout-operation", a.id)].any fun (key, want) =>
      (tags.lookup key).getD "" ≠ want && ((tags.lookup key).isSome || !allowUntagged) then
    some (.new "Azure resource ownership unconfirmed; cleanup retained")
  else none

/-! ## Deployment and listing -/

/-- `AzureSDK.terminal`: a deployment that does not exist counts as over. -/
def terminal (id : String) : Program CloudCalls (Except CloudError Bool) := do
  match ← ask (S := CloudCalls) (.deploymentGet id) with
  | .error e => if missingAzureResource e then return .ok true else return .error e
  | .ok deployment =>
    match deployment.provisioningState with
    | none => return .error { text := "invalid Azure deployment state" }
    | some state => return .ok (["Succeeded", "Failed", "Canceled"].contains state)

def azureTerminal (a : Allocation) : Program CloudCalls (Except GoError Bool) := do
  match ← terminal a.id with
  | .error e => return .error (.new ("Azure deployment observation unavailable: " ++ e.text))
  | .ok terminal => return .ok terminal

/-- The entries of one page that carry one of the allocation's names. -/
def listedPage (id : String) : List (Option AzureListed) → List AzureResource →
    Except GoError (List AzureResource)
  | [], result => .ok result
  | none :: _, _ => .error (.new "invalid Azure inventory entry")
  | some entry :: rest, result =>
    match entry.name with
    | none => .error (.new "invalid Azure inventory entry")
    | some name =>
      if !equalFold name id ∧ !equalFold name (id ++ "-nic") ∧ !equalFold name (id ++ "-os") then
        listedPage id rest result
      else
        match entry.id, entry.type with
        | some resourceID, some type =>
          match azureTagSnapshot entry.tags with
          | .error e => .error e
          | .ok tags => listedPage id rest (result ++ [{ id := resourceID, name := name, type := type, tags := tags }])
        | _, _ => .error (.new "invalid Azure resource identity")

def listedPages (id : String) : List (Except CloudError (Option (List (Option AzureListed)))) →
    List AzureResource → Except GoError (List AzureResource)
  | [], result => .ok result
  | .error e :: _, _ => .error (.new e.text)
  | .ok none :: _, _ => .error (.new "incomplete Azure inventory")
  | .ok (some entries) :: rest, result =>
    match listedPage id entries result with
    | .error e => .error e
    | .ok result => listedPages id rest result

/-! ## The inventory -/

/-- One listed resource must be one of the allocation's, in place and owned. -/
def checkListed (a : Allocation) (allowUntaggedDisk : Bool) (resource : AzureResource) :
    List AzureResourceSpec → Bool → List String → Except GoError (Bool × List String)
  | [], valid, seen => .ok (valid, seen)
  | spec :: rest, valid, seen =>
    if !equalFold resource.name spec.name then checkListed a allowUntaggedDisk resource rest valid seen
    else if seen.contains spec.kind ∨ !equalFold resource.type spec.resourceType
        ∨ !equalFold resource.id (azureID p spec.resourceType spec.name) then
      .error (.new "Azure inventory identity mismatch")
    else
      match azureOwnership p resource.tags a (allowUntaggedDisk && spec.kind = "azure-disk") with
      | some e => .error e
      | none => checkListed a allowUntaggedDisk resource rest true (spec.kind :: seen)

def checkAllListed (a : Allocation) (allowUntaggedDisk : Bool) : List AzureResource → List String →
    Except GoError (List String)
  | [], seen => .ok seen
  | resource :: rest, seen =>
    match checkListed p a allowUntaggedDisk resource (azureSpecs a) false seen with
    | .error e => .error e
    | .ok (false, _) => .error (.new "unexpected Azure inventory resource")
    | .ok (true, seen) => checkAllListed a allowUntaggedDisk rest seen

/-- The generation text of a resource, and what it is attached to. -/
def generationOf (spec : AzureResourceSpec) (resource : AzureGeneric) (g : AzureGeneration) :
    String × String × String :=
  if spec.kind = "azure-disk" then (g.uniqueID, resource.managedBy, "")
  else if spec.kind = "azure-network-interface" then
    (g.resourceGUID, g.virtualMachineID,
      match g.privateIPs with
      | [ip] => ip
      | _ => "")
  else (g.vmID, resource.managedBy, "")

/-- The checks of one resource that was found. -/
def readResource (a : Allocation) (allowUntaggedDisk : Bool) (references : GoMap String ResourceReference)
    (spec : AzureResourceSpec) (resource : AzureGeneric) : Except GoError AzureResource :=
  if !azureIdentity p resource spec.resourceType spec.name then
    .error (.new "Azure resource identity unavailable")
  else
    match azureTagSnapshot resource.tags with
    | .error e => .error e
    | .ok tags =>
      match azureOwnership p tags a (allowUntaggedDisk && spec.kind = "azure-disk") with
      | some e => .error e
      | none =>
        match resource.generation with
        | none => .error (.new "Azure resource generation missing")
        | some g =>
          let (value, managedBy, privateIP) := generationOf spec resource g
          match uuidValue p value with
          | none => .error (.new "Azure resource generation invalid")
          | some uid =>
            if spec.kind = "azure-vm" ∧ resource.vm.isNone then
              .error (.new "Azure VM dependency metadata unavailable")
            else if (references.lookup spec.kind).any (fun previous => previous.uid ≠ uid) then
              .error (.new "Azure recorded resource generation changed")
            else if managedBy ≠ "" ∧ !equalFold managedBy (azureVM p a) then
              .error (.new "Azure dependency attached to another VM")
            else
              .ok { id := azureID p spec.resourceType spec.name, name := spec.name, type := spec.resourceType,
                    tags := tags, uid := uid, managedBy := managedBy,
                    vm := if spec.kind = "azure-vm" then resource.vm else none, privateIP := privateIP }

/-- Direct reads of every path, in the order of the specs. -/
def readSpecs (a : Allocation) (allowUntaggedDisk : Bool) (references : GoMap String ResourceReference)
    (seen : List String) : List AzureResourceSpec → List AzureResource →
      Program CloudCalls (Except GoError (List AzureResource))
  | [], result => return .ok result
  | spec :: rest, result => do
    match ← ask (S := CloudCalls) (.getByID (azureID p spec.resourceType spec.name) spec.version) with
    | .error e =>
      if azureResourceMissing e then
        if seen.contains spec.kind then return .error (.new "Azure inventory changed during observation")
        else readSpecs a allowUntaggedDisk references seen rest result
      else return .error (.new "Azure resource identity unavailable")
    | .ok resource =>
      match readResource p a allowUntaggedDisk references spec resource with
      | .error e => return .error e
      | .ok item => readSpecs a allowUntaggedDisk references seen rest (result ++ [item])

def azureInventory (a : Allocation) (allowUntaggedDisk : Bool) :
    Program CloudCalls (Except GoError (List AzureResource)) := do
  match azureReferences p a with
  | .error e => return .error e
  | .ok references =>
    let pages ← ask (S := CloudCalls) .listByResourceGroup
    match listedPages a.id pages [] with
    | .error _ => return .error (.new "Azure resource inventory unavailable")
    | .ok listed =>
      match checkAllListed p a allowUntaggedDisk listed [] with
      | .error e => return .error e
      | .ok seen => readSpecs p a allowUntaggedDisk references seen (azureSpecs a) []

/-! ## The observation -/

/-- The reference of one found resource; a recorded one keeps its spelling. -/
def observedReference (retained : GoMap String ResourceReference) (resource : AzureResource)
    (spec : AzureResourceSpec) : Except GoError ResourceReference :=
  match retained.lookup spec.kind with
  | none => .ok ⟨spec.kind, resource.id, resource.uid⟩
  | some previous =>
    if previous.uid ≠ resource.uid then .error (.new "Azure recorded resource generation changed")
    else .ok previous

def observedReferences (retained : GoMap String ResourceReference) :
    List (AzureResource × AzureResourceSpec) → List ResourceReference → Except GoError (List ResourceReference)
  | [], references => .ok references
  | (resource, spec) :: rest, references =>
    match observedReference retained resource spec with
    | .error e => .error e
    | .ok reference => observedReferences retained rest (references ++ [reference])

def azureObservation (a : Allocation) (resources : List AzureResource) : Except GoError Observation :=
  match azureReferences p a with
  | .error e => .error e
  | .ok retained =>
    let matching := resources.flatMap fun resource =>
      ((azureSpecs a).filter fun spec => equalFold resource.type spec.resourceType).map fun spec => (resource, spec)
    match observedReferences retained matching a.resources with
    | .error e => .error e
    | .ok references =>
      match mergeResources [] references with
      | .error e => .error e
      | .ok (references, _) =>
        .ok { known := true, present := resources.length > 0, resourceID := azureVM p a, resources := references }

def azureConfirmedPreemption (a : Allocation) : Bool :=
  p.azureInterrupted.entries.any fun entry => entry.2 && equalFold entry.1 (azureVM p a)

/-- The identity check that follows `azureReferences` in the source repeats the one it
    starts with, so it never decides anything. -/
def observeAzure (a : Allocation) : Program CloudCalls (Observation × Option GoError) := do
  match azureReferences p a with
  | .error e => return ({}, some e)
  | .ok _ =>
    match ← azureTerminal a with
    | .error e => return ({}, some (.new ("Azure deployment commitment still unknown: " ++ e.text)))
    | .ok false => return ({}, some (.new "Azure deployment commitment still unknown"))
    | .ok true =>
      match ← azureInventory p a false with
      | .error e => return ({}, some e)
      | .ok resources =>
        match azureObservation p a resources with
        | .error e => return ({}, some e)
        | .ok observed =>
          return ({ observed with
            interrupted := !observed.present && a.offering.spot && azureConfirmedPreemption p a }, none)

/-! ## Ownership of the disk -/

structure AzureDiskBinding where
  vmUID : String
  diskUID : String
  tags : GoMap String String

/-- The checks of the disk that was read. -/
def diskBound (a : Allocation) (disk : AzureGeneric) : Except GoError (GoMap String String × AzureDiskProperties) :=
  if !azureIdentity p disk "Microsoft.Compute/disks" (a.id ++ "-os") then
    .error (.new "Azure disk identity unavailable")
  else
    match azureTagSnapshot disk.tags with
    | .error e => .error e
    | .ok tags =>
      if [("runnerscout-owner", p.config.owner), ("runnerscout-operation", a.id)].any
          fun (key, want) => (tags.lookup key).any (· ≠ want) then
        .error (.new "Azure disk has conflicting ownership")
      else if !equalFold disk.managedBy (azureVM p a) then
        .error (.new "Azure disk is not attached to the allocation VM")
      else
        match disk.disk with
        | none => .error (.new "Azure disk creation binding unconfirmed")
        | some properties =>
          if !azureUUID p properties.uniqueID ∨ properties.provisioningState ≠ "Succeeded"
              ∨ !equalFold properties.createOption "FromImage" then
            .error (.new "Azure disk creation binding unconfirmed")
          else if properties.imageID ≠ "" ∧ !equalFold properties.imageID a.offering.image then
            .error (.new "Azure disk image binding differs")
          else .ok (tags, properties)

/-- The checks of the virtual machine that was read. -/
def vmBound (a : Allocation) (vm : AzureGeneric) : Except GoError AzureVMProperties :=
  match azureTagSnapshot vm.tags with
  | .error _ => .error (.new "Azure VM ownership unconfirmed")
  | .ok tags =>
    if !azureIdentity p vm "Microsoft.Compute/virtualMachines" a.id
        ∨ (tags.lookup "runnerscout-owner").getD "" ≠ p.config.owner
        ∨ (tags.lookup "runnerscout-operation").getD "" ≠ a.id then
      .error (.new "Azure VM ownership unconfirmed")
    else
      match vm.vm with
      | none => .error (.new "Azure VM creation binding unconfirmed")
      | some properties =>
        if !azureUUID p properties.vmID ∨ properties.provisioningState ≠ "Succeeded" then
          .error (.new "Azure VM creation binding unconfirmed")
        else if !equalFold properties.imageID a.offering.image ∨ !equalFold properties.osDiskName (a.id ++ "-os")
            ∨ !equalFold properties.osDiskCreateOption "FromImage"
            ∨ !equalFold properties.osDiskID (azureID p "Microsoft.Compute/disks" (a.id ++ "-os")) then
          .error (.new "Azure VM and disk creation graph differs")
        else .ok properties

def azureDiskBinding (a : Allocation) : Program CloudCalls (Except GoError AzureDiskBinding) := do
  match azureReferences p a with
  | .error e => return .error e
  | .ok references =>
    match ← ask (S := CloudCalls)
        (.getByID (azureID p "Microsoft.Compute/disks" (a.id ++ "-os")) "2024-03-02") with
    | .error _ => return .error (.new "Azure disk identity unavailable")
    | .ok disk =>
      match diskBound p a disk with
      | .error e => return .error e
      | .ok (tags, diskProperties) =>
        match ← ask (S := CloudCalls) (.getByID (azureVM p a) "2024-07-01") with
        | .error _ => return .error (.new "Azure VM ownership unconfirmed")
        | .ok vm =>
          match vmBound p a vm with
          | .error e => return .error e
          | .ok vmProperties =>
            let vmUID := lowerCase vmProperties.vmID
            let diskUID := lowerCase diskProperties.uniqueID
            if [("azure-vm", vmUID), ("azure-disk", diskUID)].any
                fun (kind, uid) => (references.lookup kind).any fun previous => previous.uid ≠ uid then
              return .error (.new "Azure recorded creation generation changed")
            else return .ok ⟨vmUID, diskUID, tags⟩

/-- The tag update that makes the disk the allocation's own, and its confirmation. -/
def tagOwnDisk (a proof : Allocation) (binding : AzureDiskBinding) (receipt : Creation) :
    Program CloudCalls (Creation × Option GoError) := do
  let owned (tags : GoMap String String) : Bool :=
    (tags.lookup "runnerscout-owner").getD "" = p.config.owner
      && (tags.lookup "runnerscout-operation").getD "" = a.id
  if owned binding.tags then return (receipt, none)
  else
    let tags := (binding.tags.insert "runnerscout-owner" p.config.owner).insert "runnerscout-operation" a.id
    let update : GoMap String (Option String) :=
      tags.entries.foldl (fun update entry => update.insert entry.1 (some entry.2)) ∅
    match ← ask (S := CloudCalls) (.tagDisk a.id update) with
    | some e => return (receipt, some (.new ("Azure disk ownership tagging incomplete: " ++ e.text)))
    | none =>
      match ← azureDiskBinding p proof with
      | .error _ => return (receipt, some (.new "Azure disk ownership update unconfirmed"))
      | .ok confirmed =>
        if confirmed.vmUID ≠ binding.vmUID ∨ confirmed.diskUID ≠ binding.diskUID ∨ !owned confirmed.tags then
          return (receipt, some (.new "Azure disk ownership update unconfirmed"))
        else return (receipt, none)

def finishAzureDiskOwnership (a : Allocation) : Program CloudCalls (Creation × Option GoError) := do
  let receipt : Creation := { resourceID := azureVM p a }
  match ← azureDiskBinding p a with
  | .error e => return (receipt, some e)
  | .ok binding =>
    let receipt := { receipt with resources :=
      [⟨"azure-vm", azureVM p a, binding.vmUID⟩,
       ⟨"azure-disk", azureID p "Microsoft.Compute/disks" (a.id ++ "-os"), binding.diskUID⟩] }
    match mergeResources a.resources receipt.resources with
    | .error e => return (receipt, some e)
    | .ok (merged, _) =>
      let proof := { a with resources := merged }
      match ← azureInventory p proof true with
      | .error e => return (receipt, some e)
      | .ok resources =>
        match azureObservation p proof resources with
        | .error e => return (receipt, some e)
        | .ok observed =>
          let interfaces := resources.filter fun r => equalFold r.type "Microsoft.Network/networkInterfaces"
          let receipt := { receipt with
            resources := observed.resources
            wireGuardEndpoint :=
              interfaces.foldl (fun _ r => wireGuardEndpoint r.privateIP) receipt.wireGuardEndpoint }
          if resources.length ≠ 3 then return (receipt, some (.new "Azure creation dependencies incomplete"))
          else tagOwnDisk p a proof binding receipt

/-- A virtual machine or disk that does not carry the allocation's ownership tags. -/
def untagged (a : Allocation) (resource : AzureResource) : Bool :=
  (equalFold resource.type "Microsoft.Compute/virtualMachines"
      || equalFold resource.type "Microsoft.Compute/disks")
    && ((resource.tags.lookup "runnerscout-owner").getD "" ≠ p.config.owner
      || (resource.tags.lookup "runnerscout-operation").getD "" ≠ a.id)

/-- `observeAzure` of a record whose identities were already proven. -/
def observeProven (a : Allocation) : Program CloudCalls (Observation × Option GoError) := do
  match ← observeAzure p a with
  | (_, some e) => return ({ resourceID := a.resourceID, resources := a.resources }, some e)
  | (observed, none) => return (observed, none)

def reconcileAzureCreation (a : Allocation) : Program CloudCalls (Observation × Option GoError) := do
  match azureReferences p a with
  | .error e => return ({}, some e)
  | .ok _ =>
    match ← azureTerminal a with
    | .ok true =>
      match ← azureInventory p a true with
      | .error e => return ({}, some e)
      | .ok resources =>
        if resources.any (untagged p a) then
          match ← finishAzureDiskOwnership p a with
          | (receipt, some e) =>
            return ({ resourceID := receipt.resourceID, resources := receipt.resources }, some e)
          | (receipt, none) =>
            match mergeResources a.resources receipt.resources with
            | .error e => return ({}, some e)
            | .ok (merged, _) =>
              observeProven p { a with resources := merged, resourceID := receipt.resourceID }
        else observeProven p a
    | _ => return ({}, some (.new "Azure deployment commitment still unknown"))

end Azure

end RunnerScout.Provider
