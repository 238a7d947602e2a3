import RunnerScout.Provider.Adapter
import RunnerScout.Provider.AwsInventory
import RunnerScout.Provider.AzureInventory
import RunnerScout.Provider.GcpInventory

/-! # Creating the resources of an allocation

The create path of each cloud: a preflight that finds the allocation's names vacant,
one request that may create something, and what is made of its outcome.  A
definitive rejection is told apart from an outcome that is not known by two error
values; everything else is unknown.
-/

namespace RunnerScout.Provider

open Interaction Program Lifecycle

section Create

variable (p : Command) (a : Allocation)

def failed (text : String) : Creation × Option GoError := ({}, some (.new text))

/-! ## EC2 -/

/-- The EBS devices of an image by name, unless one has no name or the name of another. -/
def expectedDevices : List AwsImageDevice → List String → Option (List String)
  | [], expected => some expected
  | device :: rest, expected =>
    if !device.ebs then expectedDevices rest expected
    else if device.deviceName = "" ∨ expected.contains device.deviceName then none
    else expectedDevices rest (device.deviceName :: expected)

def awsArchitecture (architecture : String) : String :=
  if architecture = "amd64" then "x86_64" else if architecture = "arm64" then "arm64" else ""

/-- The image an instance can be launched from, with the devices it will have. -/
def awsImage : Except CloudError (Option (List AwsImage)) → Option (AwsImage × List String)
  | .ok (some [image]) =>
    let architecture := awsArchitecture a.offering.architecture
    if image.imageID ≠ a.offering.image then none
    else if architecture = "" ∨ image.architecture ≠ architecture ∨ image.state ≠ "available" ∨ image.platform ≠ ""
        ∨ image.rootDeviceType ≠ "ebs" ∨ image.rootDeviceName = "" ∨ image.productCodes > 0 then
      none
    else
      match expectedDevices image.blockDevices [] with
      | none => none
      | some expected => if expected.contains image.rootDeviceName then some (image, expected) else none
  | _ => none

def awsRunInput (script : Script) (image : AwsImage) : AwsRunInput where
  imageID := a.offering.image
  instanceType := a.offering.machine
  clientToken := a.id
  zone := a.offering.zone
  userData := script
  devices := image.blockDevices
  subnetID := p.config.subnet
  securityGroup := p.config.securityGroup
  tags := [⟨"runnerscout-owner", p.config.owner⟩, ⟨"runnerscout-operation", a.id⟩]
  spot := a.offering.spot

/-- The instance of a response that is the allocation's own. -/
def awsLaunched : Option AwsRunOutput → Option AwsInstance
  | some { ownerID := ownerID, instances := [i] } =>
    if ownerID = p.config.accountID ∧ awsInstanceOwned p a i then some i else none
  | _ => none

/-- The block devices of a new instance may lag behind it, so it is read again up to
    `attempts` times. -/
def awsDevices : Nat → AwsInstance → Program AdapterCalls AwsInstance
  | 0, i => return i
  | attempts + 1, i => do
    if i.blockDevices.length ≠ 0 then return i
    else
      match ← ask (S := AdapterCalls) .pause with
      | false => awsDevices attempts i
      | true =>
        match ← ask (S := AdapterCalls) (.read (.describeInstances (.ids [i.instanceID]) "")) with
        | .ok (some { items := [{ ownerID := _, instances := [described] }], nextToken := _, known := _ }) =>
          awsDevices attempts described
        | _ => awsDevices attempts i

def awsReceipt (i : AwsInstance) : Creation where
  resourceID := i.instanceID
  resources :=
    i.blockDevices.filterMap (fun device => device.volumeID.bind fun id =>
        if id = "" then none else some ⟨"aws-volume", id, ""⟩)
      ++ i.interfaces.filterMap fun network =>
        if network.interfaceID = "" then none else some ⟨"aws-network-interface", network.interfaceID, ""⟩
  wireGuardEndpoint :=
    match i.interfaces with
    | [network] => wireGuardEndpoint network.privateIP
    | _ => ""

/-- The receipt of an instance, complete only if every expected device was found. -/
def awsReceived (expected : List String) (i : AwsInstance) : Creation × Option GoError :=
  let receipt := awsReceipt i
  let observed := ((i.blockDevices.filter fun device => device.volumeID.isSome).map AwsBlockDevice.deviceName).dedup
  match mergeResources [] receipt.resources with
  | .error e => ({ receipt with resources := [] }, some e)
  | .ok (resources, _) =>
    let receipt := { receipt with resources := resources }
    if i.interfaces.length ≠ 1 ∨ observed.length ≠ expected.length ∨ resources.length ≠ expected.length + 1 then
      (receipt, some (.new "AWS creation dependencies incomplete"))
    else if expected.any fun name => !observed.contains name then
      (receipt, some (.new "AWS creation disk binding incomplete"))
    else (receipt, none)

def createAWS (script : Script) : Program AdapterCalls (Creation × Option GoError) := do
  if a.resourceID ≠ "" ∨ a.resources.length > 0 then return failed "AWS create requires an unoccupied allocation"
  else
    match ← ask (S := AdapterCalls) (.read (.awsSession a.offering.region)) with
    | some e => return ({}, some e)
    | none =>
      match ← reading (awsInventory p a) with
      | .error _ => return failed "AWS allocation inventory is unknown or occupied"
      | .ok inventory =>
        if inventory.vm.isSome ∨ inventory.volumes.entries.length > 0 ∨ inventory.interfaces.entries.length > 0 then
          return failed "AWS allocation inventory is unknown or occupied"
        else
          match awsImage a (← ask (S := AdapterCalls) (.read (.describeImages a.offering.image))) with
          | none => return ({}, some errNoEffect)
          | some (image, expected) =>
            match ← ask (S := AdapterCalls) (.runInstances (awsRunInput p a script image)) with
            | .error e =>
              if awsMissing e "InsufficientInstanceCapacity" then return ({}, some errCapacity)
              else return failed ("AWS create commitment unknown: " ++ e.text)
            | .ok response =>
              match awsLaunched p a response with
              | none => return failed "AWS create response ownership unconfirmed"
              | some i =>
                let i ← awsDevices 3 i
                return awsReceived expected i

/-! ## Compute Engine -/

def gcpCapacityFailure (op : GcpOperation) : Bool :=
  match op.errors with
  | none => false
  | some codes => codes.any fun code =>
    code = some "ZONE_RESOURCE_POOL_EXHAUSTED" || code = some "ZONE_RESOURCE_POOL_EXHAUSTED_WITH_DETAILS"

/-- The operation a request was answered with, or one read again under the same name. -/
def gcpOperationOwn (action kind name operationName : String) (op : GcpOperation) : Bool :=
  op.operationType = (if action = "create" then "insert" else "delete") && op.name ≠ ""
    && (operationName = "" || op.name = operationName) && op.clientOperationID = gcpRequestID p a action
    && gcpMatches p op.targetLink (gcpResource p a kind name)

/-- What an operation that is done means. -/
def gcpOperationDone (action : String) (op : GcpOperation) : Program AdapterCalls (Option GoError) := do
  if op.errors.isSome ∨ op.httpErrorStatusCode ≠ 0 then
    if action = "create" ∧ gcpCapacityFailure op then
      match ← reading (gcpInventory p a) with
      | .ok { vm := none, disk := none } => return some errCapacity
      | _ => return some (.new "GCP operation failed; reconcile ownership")
    else return some (.new "GCP operation failed; reconcile ownership")
  else return none

/-- One turn of the loop that waits for an operation; `pending` goes on with it. -/
def gcpOperationTurn (action kind name operationName : String) (op : GcpOperation)
    (pending : Program AdapterCalls (Option GoError)) : Program AdapterCalls (Option GoError) :=
  if !gcpOperationOwn p a action kind name operationName op then
    return some (.new "GCP operation identity unconfirmed")
  else if op.status = "DONE" then gcpOperationDone p a action op
  else if op.status ≠ "PENDING" ∧ op.status ≠ "RUNNING" then return some (.new "GCP operation state unknown")
  else pending

/-- The loop that waits for an operation.  It polls once a second, so the deadline of
    the call bounds the number of polls. -/
def waitGCPOperation (action kind name : String) : Nat → String → GcpOperation → Program AdapterCalls (Option GoError)
  | 0, operationName, op =>
    gcpOperationTurn p a action kind name operationName op
      (return some (.new "GCP operation commitment unknown"))
  | polls + 1, operationName, op =>
    gcpOperationTurn p a action kind name operationName op do
      match ← ask (S := AdapterCalls) .pause with
      | false => return some (.new "GCP operation commitment unknown")
      | true =>
        match ← ask (S := AdapterCalls) (.read (.gcpOperation a.offering.zone op.name)) with
        | .error e => return some (.new ("GCP operation observation unavailable: " ++ e.text))
        | .ok next => waitGCPOperation action kind name polls op.name next

variable {p a} in
theorem gcpOperationTurn_only {action kind name operationName : String} {op : GcpOperation}
    {pending : Program AdapterCalls (Option GoError)} (later : pending.Only fun request : AdapterRequest => request.passive = true) :
    (gcpOperationTurn p a action kind name operationName op pending).Only fun request : AdapterRequest => request.passive = true := by
  unfold gcpOperationTurn gcpOperationDone
  split
  · trivial
  split
  · split
    · split
      · refine (reading_only _).bind fun inventory => ?_
        split <;> trivial
      · trivial
    · trivial
  split
  · trivial
  · exact later

variable {p a} in
/-- Waiting for an operation changes nothing. -/
theorem waitGCPOperation_only {action kind name : String} : ∀ (polls : Nat) (operationName : String) (op : GcpOperation),
    (waitGCPOperation p a action kind name polls operationName op).Only fun request : AdapterRequest => request.passive = true
  | 0, _, _ => gcpOperationTurn_only trivial
  | polls + 1, _, _ => by
    refine gcpOperationTurn_only ⟨rfl, fun woken => ?_⟩
    cases woken with
    | false => trivial
    | true =>
      refine ⟨rfl, fun reply => ?_⟩
      cases reply with
      | error e => trivial
      | ok next => exact waitGCPOperation_only polls _ next

def gcpInsertInput (script : Script) : GcpInsertInput where
  name := a.id
  machineType :=
    if containsAny a.offering.machine "/" then a.offering.machine else gcpResource p a "machineTypes" a.offering.machine
  labels := ((∅ : GoMap String String).insert "runnerscout-owner" p.config.owner).insert "runnerscout-operation" a.id
  subnetwork :=
    if containsAny p.config.subnet "/" then p.config.subnet
    else "projects/" ++ p.config.project ++ "/regions/" ++ a.offering.region ++ "/subnetworks/" ++ p.config.subnet
  diskName := a.id
  sourceImage := a.offering.image
  startupScript := script
  spot := a.offering.spot

/-- Best effort: a failed read leaves the endpoint out. -/
def gcpCaptureWireGuardEndpoint : Program AdapterCalls String := do
  match ← ask (S := AdapterCalls) (.read (.gcpInstance a.offering.zone a.id)) with
  | .error _ => return ""
  | .ok vm =>
    match vm.networkIPs with
    | [some ip] => return wireGuardEndpoint ip
    | _ => return ""

/-- The five minutes of a create call. -/
def createPolls : Nat := 300

def createGCP (script : Script) : Program AdapterCalls (Creation × Option GoError) := do
  if !p.gcpService then return failed "GCP credential scope unavailable"
  else
    match ← reading (gcpInventory p a) with
    | .ok { vm := none, disk := none } =>
      match ← ask (S := AdapterCalls)
          (.gcpInsert a.offering.zone (gcpInsertInput p a script) (gcpRequestID p a "create")) with
      | .error e => return failed ("GCP creation commitment unknown: " ++ e.text)
      | .ok op =>
        match ← waitGCPOperation p a "create" "instances" a.id createPolls "" op with
        | some e => return ({}, some e)
        | none =>
          if a.networkProfile = "" then return ({ resourceID := a.id }, none)
          else
            let endpoint ← gcpCaptureWireGuardEndpoint a
            return ({ resourceID := a.id, wireGuardEndpoint := endpoint }, none)
    | _ => return failed "GCP create requires an unoccupied allocation identity"

/-! ## Azure -/

def azureCapacityErrorCodes : List String :=
  ["OverconstrainedAllocationRequest", "OverconstrainedZonalAllocationRequest", "AllocationFailed",
    "ZonalAllocationFailed"]

mutual

def azureCapacityFailure : AzureErrorResponse → Bool
  | .mk code details => code.any azureCapacityErrorCodes.contains || azureCapacityFailures details

def azureCapacityFailures : List AzureErrorResponse → Bool
  | [] => false
  | detail :: rest => azureCapacityFailure detail || azureCapacityFailures rest

end

def deploymentCapacityRejected (id : String) : Program CloudCalls Bool := do
  match ← ask (S := CloudCalls) (.deploymentGet id) with
  | .error _ => return false
  | .ok deployment =>
    if deployment.provisioningState ≠ some "Failed" then return false
    else return deployment.error.any azureCapacityFailure

/-- Every path a deployment will create, in the order they are read. -/
def requireVacantResources : List AzureResourceSpec → Program CloudCalls (Option GoError)
  | [] => return none
  | spec :: rest => do
    match ← ask (S := CloudCalls) (.getByID (azureID p spec.resourceType spec.name) spec.version) with
    | .error e =>
      if azureResourceMissing e then requireVacantResources rest
      else return some (.new "Azure resource name occupied or absence unconfirmed")
    | .ok _ => return some (.new "Azure resource name occupied or absence unconfirmed")

/-- The preflight: neither a deployment nor a resource has one of the allocation's names. -/
def requireVacantCreation : Program CloudCalls (Option GoError) := do
  match ← ask (S := CloudCalls) (.deploymentGet a.id) with
  | .error e =>
    if e.client then return some (.new "Azure creation inventory unavailable")
    else if missingAzureResource e then requireVacantResources p (azureSpecs a)
    else return some (.new "Azure deployment name occupied or absence unconfirmed")
  | .ok _ => return some (.new "Azure deployment name occupied or absence unconfirmed")

/-- The identity of an image that was read. -/
def azureImageIdentity (id : ArmResourceID) (type : String) (image : AzureGeneric) : Bool :=
  equalFold image.id a.offering.image && equalFold image.name id.name && equalFold image.type type
    && equalFold image.location a.offering.region

def validateAzureManagedImage (id : ArmResourceID) : Program CloudCalls (Option GoError) := do
  match ← ask (S := CloudCalls) (.getByID a.offering.image "2026-04-01") with
  | .error _ => return some (.new "Azure image identity or region unconfirmed")
  | .ok image =>
    if !azureImageIdentity a id "Microsoft.Compute/images" image then
      return some (.new "Azure image identity or region unconfirmed")
    else
      match image.image with
      | some { provisioningState := "Succeeded", osType := "Linux", osState := "Generalized", dataDisks := 0 } =>
        return none
      | _ => return some (.new "Azure requires an available generalized Linux image with only an OS disk")

def validateAzureGalleryImageVersion (id : ArmResourceID) : Program CloudCalls (Option GoError) := do
  match id.parent with
  | none => return some (.new "Azure requires a managed-image or gallery-image-version resource ID")
  | some (parentType, parent) =>
    if !equalFold parentType "Microsoft.Compute/galleries/images" then
      return some (.new "Azure requires a managed-image or gallery-image-version resource ID")
    else
      match ← ask (S := CloudCalls) (.getByID a.offering.image "2024-03-03") with
      | .error _ => return some (.new "Azure image identity or region unconfirmed")
      | .ok version =>
        if !azureImageIdentity a id "Microsoft.Compute/galleries/images/versions" version then
          return some (.new "Azure image identity or region unconfirmed")
        else if !version.image.any fun image => image.provisioningState = "Succeeded" && image.dataDisks = 0 then
          return some (.new "Azure requires an available gallery image version with only an OS disk")
        else
          match ← ask (S := CloudCalls) (.getByID parent "2024-03-03") with
          | .error _ => return some (.new "Azure gallery image definition unconfirmed")
          | .ok definition =>
            if !equalFold definition.type "Microsoft.Compute/galleries/images" then
              return some (.new "Azure gallery image definition unconfirmed")
            else if !definition.image.any fun image => image.osType = "Linux" && image.osState = "Generalized" then
              return some (.new "Azure requires an available generalized Linux gallery image")
            else return none

def validateAzureImage : Program CloudCalls (Option GoError) :=
  match p.library.parseResourceID a.offering.image with
  | none => return some (.new "Azure requires a managed-image or gallery-image-version resource ID")
  | some id =>
    if id.subscriptionID = "" ∨ id.resourceGroupName = "" ∨ a.offering.region = "" then
      return some (.new "Azure requires a managed-image or gallery-image-version resource ID")
    else if equalFold id.resourceType "Microsoft.Compute/images" then validateAzureManagedImage a id
    else if equalFold id.resourceType "Microsoft.Compute/galleries/images/versions" then
      validateAzureGalleryImageVersion a id
    else return some (.new "Azure requires a managed-image or gallery-image-version resource ID")

def azureTemplate : AzureTemplate where
  name := a.id
  location := a.offering.region
  zone := a.offering.zone
  vmSize := a.offering.machine
  imageID := a.offering.image
  tags := ((∅ : GoMap String String).insert "runnerscout-owner" p.config.owner).insert "runnerscout-operation" a.id
  securityGroup := p.config.securityGroup
  subnetID := p.config.subnet
  sshPublicKey := p.config.sshPublicKey
  diskControllerType := p.config.azureDiskControllerType
  maxPriceMicros := if a.offering.spot then some a.requirements.maxPriceMicros else none

/-- A failed deployment is a capacity rejection once nothing of it is left. -/
def azureDeploymentFailed (e : CloudError) : Program AdapterCalls (Creation × Option GoError) := do
  let unknown := failed ("Azure deployment commitment unknown: " ++ e.text)
  match ← reading (deploymentCapacityRejected a.id) with
  | false => return unknown
  | true =>
    match ← reading (azureInventory p a false) with
    | .ok [] => return ({}, some errCapacity)
    | _ => return unknown

def createAzure (script : Script) : Program AdapterCalls (Creation × Option GoError) := do
  if !startsWith (lowerCase a.offering.image) "/subscriptions/" then
    return failed "Azure requires a pinned managed-image resource ID"
  else
    match ← reading (requireVacantCreation p a) with
    | some e => return ({}, some e)
    | none =>
      match ← reading (validateAzureImage p a) with
      | some e => return ({}, some e)
      | none =>
        match ← ask (S := AdapterCalls) (.deploy a.id (azureTemplate p a) script) with
        | some e => azureDeploymentFailed p a e
        | none => reading (finishAzureDiskOwnership p a)

/-! ## The adapter -/

/-- What an allocation in an overlay network is given for it. -/
structure OverlayIdentity where
  payload : CloudInitPayload
  publicKey : Bytes32
  pollTokenHash : Bytes32

def overlayIdentity : Program AdapterCalls (Except GoError (Option OverlayIdentity)) := do
  if a.networkProfile = "" then return .ok none
  else if !p.networkPeers then return .error errNoEffect
  else
    match ← ask (S := AdapterCalls) .generateKey with
    | .error e => return .error (.new e.text)
    | .ok keyPair =>
      match ← ask (S := AdapterCalls) .generatePollToken with
      | .error e => return .error (.new e.text)
      | .ok (pollToken, pollTokenHash) =>
        match ← ask (S := AdapterCalls) (.networkPeers a) with
        | .error e => return .error e
        | .ok peers =>
          return .ok (some
            { payload :=
                { privateKey := keyPair.privateKey
                  allocationID := a.id
                  controllerURL := p.config.wireGuardControllerURL
                  pollToken := pollToken
                  overlayAddress := a.wireGuardOverlayAddress
                  peers := peers }
              publicKey := keyPair.publicKey
              pollTokenHash := pollTokenHash })

/-- The receipt of a create call, with the identity its machine was given. -/
def withIdentity (overlay : Option OverlayIdentity) (creation : Creation) : Creation :=
  match overlay with
  | none => { creation with wireGuardEndpoint := "" }
  | some overlay =>
    { creation with
      wireGuardPublicKey := overlay.publicKey.val
      wireGuardPollTokenHash := overlay.pollTokenHash.val }

def createOn (script : Script) : Program AdapterCalls (Creation × Option GoError) :=
  if p.config.kind = "aws" then createAWS p a script
  else if p.config.kind = "azure" then createAzure p a script
  else createGCP p a script

namespace Command

def createWithResources : Program AdapterCalls (Creation × Option GoError) := do
  if a.resourceID ≠ "" ∨ a.resources.length > 0 then return failed "cannot create over recorded cloud resources"
  else
    match validateName a.id with
    | some e => return ({}, some e)
    | none =>
      match p.validate with
      | some e => return ({}, some e)
      | none =>
        if !p.bootstrap then return ({}, some errNoEffect)
        else
          match ← ask (S := AdapterCalls) (.bootstrap a.id) with
          | .error e => return ({}, some ⟨[.noEffect], errNoEffect.text ++ ": " ++ e.text⟩)
          | .ok jit =>
            if jit = "" then return ({}, some errNoEffect)
            else
              match ← overlayIdentity p a with
              | .error e => return ({}, some e)
              | .ok overlay =>
                let script : Script := { jit := jit, wireGuard := overlay.map OverlayIdentity.payload }
                let (creation, e) ← createOn p a script
                return (withIdentity overlay creation, e)

def create : Program AdapterCalls (String × Option GoError) := do
  let (receipt, e) ← createWithResources p a
  return (receipt.resourceID, e)

end Command

end Create

end RunnerScout.Provider
