import RunnerScout.Interaction.Program
import RunnerScout.Lifecycle.Allocation

/-! # The cloud interfaces the adapters read

The calls `provider.Command` makes to EC2, to Azure Resource Manager and to Google
Compute Engine to find out what exists, with the parts of their answers the adapters
look at.  A pointer that is only ever read through `aws.ToString` or `azureValue` is
the string it reads as.
-/

namespace RunnerScout.Provider

open Interaction Lifecycle

def lowerByte (byte : UInt8) : UInt8 := if 65 ≤ byte ∧ byte ≤ 90 then byte + 32 else byte

/-- `strings.EqualFold` on the ASCII alphabet of cloud identifiers. -/
def equalFold (s t : String) : Bool := s.toByteArray.data.toList.map lowerByte = t.toByteArray.data.toList.map lowerByte

/-- `strings.ToLower` on the same alphabet. -/
def lowerCase (s : String) : String := String.ofList (s.toList.map Char.toLower)

/-- An error of a cloud call.  `client` says that its client could not be made, and `api`
    whether `errors.As` finds the typed service error, whose status and code are then
    meaningful. -/
structure CloudError where
  text : String
  client : Bool := false
  api : Bool := false
  status : Int := 0
  code : String := ""
deriving DecidableEq, Repr

/-! ## EC2 -/

structure AwsTag where
  key : String
  value : String
deriving DecidableEq, Repr

/-- A block device, with the volume behind it if it is an EBS one. -/
structure AwsBlockDevice where
  deviceName : String := ""
  volumeID : Option String
deriving DecidableEq, Repr

structure AwsAttachedInterface where
  interfaceID : String
  privateIP : String := ""
deriving DecidableEq, Repr

structure AwsInstance where
  instanceID : String
  clientToken : String
  tags : List AwsTag
  zone : Option String
  subnetID : String
  state : Option String
  stateReason : Option String := none
  blockDevices : List AwsBlockDevice := []
  interfaces : List AwsAttachedInterface := []
deriving DecidableEq, Repr

structure AwsReservation where
  ownerID : String
  instances : List AwsInstance
deriving DecidableEq, Repr

structure AwsVolume where
  volumeID : String
  tags : List AwsTag
  zone : String
  /-- The instances it is attached to. -/
  attachments : List String := []
  state : String := ""
deriving DecidableEq, Repr

structure AwsInterface where
  interfaceID : String
  ownerID : String
  tags : List AwsTag
  zone : String
  subnetID : String
  attachment : Option String := none
  status : String := ""
deriving DecidableEq, Repr

/-- A block device of an image, and whether it is an EBS one. -/
structure AwsImageDevice where
  deviceName : String
  ebs : Bool
deriving DecidableEq, Repr

structure AwsImage where
  imageID : String
  architecture : String := ""
  state : String := ""
  platform : String := ""
  rootDeviceType : String := ""
  rootDeviceName : String := ""
  productCodes : Nat := 0
  blockDevices : List AwsImageDevice := []
deriving DecidableEq, Repr

/-- One page of a listing; `known` is whether the response carries a request ID. -/
structure AwsPage (α : Type) where
  items : List α
  nextToken : String := ""
  known : Bool := true
deriving DecidableEq, Repr

/-- What a describe call selects by. -/
inductive AwsSelector where
  | ids (names : List String)
  | clientToken (token : String)
  | owned (owner allocation : String)
deriving DecidableEq, Repr

abbrev AwsReply (α : Type) := Except CloudError (Option (AwsPage α))

def awsMissing (e : CloudError) (code : String) : Bool := e.api && e.code = code

/-! ## Azure Resource Manager -/

/-- `armresources.GenericResourceExpanded`, as a listing returns it. -/
structure AzureListed where
  id : Option String
  name : Option String
  type : Option String
  tags : GoMap String (Option String) := ∅

/-- The generation fields of any resource. -/
structure AzureGeneration where
  vmID : String := ""
  uniqueID : String := ""
  resourceGUID : String := ""
  virtualMachineID : String := ""
  privateIPs : List String := []
deriving DecidableEq, Repr

structure AzureVMProperties where
  vmID : String := ""
  provisioningState : String := ""
  dataDisks : Nat := 0
  imageID : String := ""
  osDiskName : String := ""
  osDiskCreateOption : String := ""
  osDiskID : String := ""
  interfaceIDs : List String := []
deriving DecidableEq, Repr

structure AzureDiskProperties where
  uniqueID : String := ""
  provisioningState : String := ""
  createOption : String := ""
  imageID : String := ""
deriving DecidableEq, Repr

/-- What is read of a managed image, a gallery image version or its definition, each of
    which has these fields in places of its own. -/
structure AzureImageProperties where
  provisioningState : String := ""
  osType : String := ""
  osState : String := ""
  dataDisks : Nat := 0
deriving DecidableEq, Repr

/-- `armresources.GenericResource`.  Its properties are free-form; `generation`, `vm`,
    `disk` and `image` are what `azureProperties` decodes them to, where that succeeds. -/
structure AzureGeneric where
  id : String
  type : String
  name : String
  location : String := ""
  managedBy : String := ""
  tags : GoMap String (Option String) := ∅
  generation : Option AzureGeneration := none
  vm : Option AzureVMProperties := none
  disk : Option AzureDiskProperties := none
  image : Option AzureImageProperties := none

/-- `armdeployments.ErrorResponse`. -/
inductive AzureErrorResponse where
  | mk (code : Option String) (details : List AzureErrorResponse)

/-- The state of a deployment, where the response has one, and what it failed with. -/
structure AzureDeployment where
  provisioningState : Option String
  error : Option AzureErrorResponse := none

/-! ## Google Compute Engine -/

structure GcpAttachedDisk where
  boot : Bool
  autoDelete : Bool
  source : String
deriving DecidableEq, Repr

structure GcpInstance where
  name : String
  id : Nat
  selfLink : String
  labels : GoMap String String := ∅
  disks : List (Option GcpAttachedDisk) := []
  /-- The address of each network interface. -/
  networkIPs : List (Option String) := []

structure GcpDisk where
  name : String
  id : Nat
  selfLink : String
  labels : GoMap String String := ∅
  users : List String := []

/-- `compute.Operation`; `errors` are the codes of its error, if it has one. -/
structure GcpOperation where
  name : String
  clientOperationID : String := ""
  operationType : String
  targetLink : String
  status : String
  errors : Option (List (Option String)) := none
  httpErrorStatusCode : Int := 0
deriving DecidableEq, Repr

structure GcpOperationList where
  kind : String
  items : List (Option GcpOperation)
deriving DecidableEq, Repr

inductive GcpFilter where
  | clientOperation (id : String)
  | operationType (type : String)
deriving DecidableEq, Repr

/-! ## Calls -/

inductive CloudRequest where
  | awsSession (region : String)
  | describeInstances (selector : AwsSelector) (token : String)
  | describeVolumes (selector : AwsSelector) (token : String)
  | describeNetworkInterfaces (selector : AwsSelector) (token : String)
  | deploymentGet (name : String)
  /-- A pager run to its end, or to the page that failed. -/
  | listByResourceGroup
  | getByID (id version : String)
  | tagDisk (id : String) (tags : GoMap String (Option String))
  | describeImages (image : String)
  | gcpInstance (zone name : String)
  | gcpDisk (zone name : String)
  /-- `Pages`: the pages up to the end of the listing, or to the one that failed. -/
  | gcpOperations (zone : String) (filter : GcpFilter)
  | gcpOperation (zone name : String)

abbrev CloudReply : CloudRequest → Type
  | .awsSession _ => Option GoError
  | .describeInstances _ _ => AwsReply AwsReservation
  | .describeVolumes _ _ => AwsReply AwsVolume
  | .describeNetworkInterfaces _ _ => AwsReply AwsInterface
  | .deploymentGet _ => Except CloudError AzureDeployment
  | .listByResourceGroup => List (Except CloudError (Option (List (Option AzureListed))))
  | .getByID _ _ => Except CloudError AzureGeneric
  | .tagDisk _ _ => Option CloudError
  | .describeImages _ => Except CloudError (Option (List AwsImage))
  | .gcpInstance _ _ => Except CloudError GcpInstance
  | .gcpDisk _ _ => Except CloudError GcpDisk
  | .gcpOperations _ _ => List (Except CloudError GcpOperationList)
  | .gcpOperation _ _ => Except CloudError GcpOperation

abbrev CloudCalls : Signature := ⟨CloudRequest, CloudReply⟩

/-! ## Configuration -/

structure Config where
  accountID : String := ""
  subscription : String := ""
  resourceGroup : String := ""
  sshPublicKey : String := ""
  kind : String
  project : String := ""
  profile : String := ""
  subnet : String
  securityGroup : String := ""
  owner : String
  wireGuardControllerURL : String := ""
  azureDiskControllerType : String := ""
deriving DecidableEq, Repr

/-- `url.URL`, as far as links are compared. -/
structure Url where
  scheme : String := ""
  host : String := ""
  path : String
  rawQuery : String := ""
  fragment : String := ""
deriving DecidableEq, Repr

/-- `arm.ResourceID`, with the type and the text of its parent. -/
structure ArmResourceID where
  subscriptionID : String
  resourceGroupName : String
  resourceType : String
  name : String
  parent : Option (String × String) := none
deriving DecidableEq, Repr

/-- The pure functions of other packages that the adapters call.  Nothing is assumed
    about them but what a result says. -/
structure Library where
  parseURL : String → Option Url := fun link => some { path := link }
  /-- `uuid.NewSHA1(uuid.NameSpaceOID, data).String()`. -/
  newSHA1 : String → String := id
  /-- `uuid.Parse(s)`, giving the canonical text of the value it parses. -/
  parseUUID : String → Option String := some
  parseResourceID : String → Option ArmResourceID := fun _ => none

/-- A configured adapter; `bootstrap` and `networkPeers` say which of its functions are set. -/
structure Command where
  config : Config
  azureInterrupted : GoMap String Bool := ∅
  bootstrap : Bool := true
  networkPeers : Bool := true
  gcpService : Bool := true
  library : Library := {}

def validateName (s : String) : Option GoError :=
  if s.utf8ByteSize < 1 ∨ s.utf8ByteSize > 63 ∨ !onlyFrom "abcdefghijklmnopqrstuvwxyz0123456789-" s
      ∨ !(s.toList.headD ' ').isLower then
    some (.new "invalid provider-safe name")
  else none

def Command.validate (p : Command) : Option GoError :=
  match validateName p.config.owner with
  | some e => some e
  | none =>
    if p.config.owner = "" ∨ p.config.subnet = "" then some (.new "owner and isolated subnet required")
    else if p.config.kind = "aws" ∧ p.config.securityGroup ≠ "" ∧ p.config.accountID.utf8ByteSize = 12
        ∧ onlyFrom "0123456789" p.config.accountID then none
    else if p.config.kind = "azure" ∧ p.config.subscription ≠ "" ∧ p.config.resourceGroup ≠ ""
        ∧ p.config.securityGroup ≠ "" ∧ startsWith p.config.sshPublicKey "ssh-" then none
    else if p.config.kind = "gcp" ∧ p.config.project ≠ "" then none
    else
      some (.new ("aws requires securityGroup and 12-digit accountID; gcp requires project; " ++
        "azure requires subscription, resourceGroup, securityGroup and SSH public key"))

end RunnerScout.Provider
