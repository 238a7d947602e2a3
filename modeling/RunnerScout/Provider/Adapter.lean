import RunnerScout.Interaction.Trace
import RunnerScout.Provider.AwsInventory
import RunnerScout.Provider.AzureInventory
import RunnerScout.Provider.GcpInventory

/-! # Everything an adapter asks for

The reads of `CloudCalls`, the requests that create and delete resources, and what a
create call needs before it may send one: a runner configuration from GitHub and,
for an allocation in an overlay network, a key pair, a poll token and its peers.
-/

namespace RunnerScout.Provider

open Interaction Program Lifecycle

variable {request : AdapterRequest}

/-! ## The bootstrap of a runner -/

/-- A Curve25519 key or a SHA-256 hash. -/
abbrev Bytes32 := { bytes : List UInt8 // bytes.length = 32 }

structure KeyPair where
  privateKey : Bytes32
  publicKey : Bytes32

structure Peer where
  allocationID : String
  publicKey : String
  overlayAddress : String
  endpoint : String
deriving DecidableEq, Repr

structure CloudInitPayload where
  privateKey : Bytes32
  allocationID : String
  controllerURL : String
  pollToken : String
  overlayAddress : String
  peers : List Peer

/-- The script of `BootstrapWithWireGuard`, by what is written into it. -/
structure Script where
  jit : String
  wireGuard : Option CloudInitPayload := none

/-! ## Requests that change something -/

/-- `ec2.RunInstancesInput`, without what is the same in every request. -/
structure AwsRunInput where
  imageID : String
  instanceType : String
  clientToken : String
  zone : String
  userData : Script
  devices : List AwsImageDevice
  subnetID : String
  securityGroup : String
  tags : List AwsTag
  spot : Bool

structure AwsRunOutput where
  ownerID : String
  instances : List AwsInstance
deriving DecidableEq, Repr

structure AwsStateChange where
  instanceID : String
  currentState : Option String
deriving DecidableEq, Repr

/-- `compute.Instance` as it is sent. -/
structure GcpInsertInput where
  name : String
  machineType : String
  labels : GoMap String String
  subnetwork : String
  diskName : String
  sourceImage : String
  startupScript : Script
  spot : Bool

/-- The template of a deployment; `maxPriceMicros` is set for a spot machine. -/
structure AzureTemplate where
  name : String
  location : String
  zone : String
  vmSize : String
  imageID : String
  tags : GoMap String String
  securityGroup : String
  subnetID : String
  sshPublicKey : String
  diskControllerType : String
  maxPriceMicros : Option Int

inductive AdapterRequest where
  | read (request : CloudRequest)
  | bootstrap (id : String)
  | generateKey
  | generatePollToken
  | networkPeers (a : Allocation)
  /-- A timer, unless the deadline of the call comes first. -/
  | pause
  | runInstances (input : AwsRunInput)
  | terminateInstances (ids : List String)
  | deleteVolume (id : String)
  | deleteNetworkInterface (id : String)
  | gcpInsert (zone : String) (input : GcpInsertInput) (requestID : String)
  | gcpDeleteInstance (zone name requestID : String)
  | gcpDeleteDisk (zone name requestID : String)
  /-- `BeginCreateOrUpdate` and the poller that waits for its end. -/
  | deploy (name : String) (template : AzureTemplate) (bootstrap : Script)
  | beginDelete (id version : String)

abbrev AdapterReply : AdapterRequest → Type
  | .read request => CloudReply request
  | .bootstrap _ => Except CloudError String
  | .generateKey => Except CloudError KeyPair
  | .generatePollToken => Except CloudError (String × Bytes32)
  | .networkPeers _ => Except GoError (List Peer)
  | .pause => Bool
  | .runInstances _ => Except CloudError (Option AwsRunOutput)
  | .terminateInstances _ => Except CloudError (Option (List AwsStateChange))
  | .deleteVolume _ | .deleteNetworkInterface _ | .deploy _ _ _ | .beginDelete _ _ => Option CloudError
  | .gcpInsert _ _ _ | .gcpDeleteInstance _ _ _ | .gcpDeleteDisk _ _ _ => Except CloudError GcpOperation

abbrev AdapterCalls : Signature := ⟨AdapterRequest, AdapterReply⟩

/-- The requests that may create a resource. -/
def AdapterRequest.creates : AdapterRequest → Bool
  | .runInstances _ | .gcpInsert _ _ _ | .deploy _ _ _ => true
  | _ => false

/-- The requests that may delete one. -/
def AdapterRequest.destroys : AdapterRequest → Bool
  | .terminateInstances _ | .deleteVolume _ | .deleteNetworkInterface _ | .gcpDeleteInstance _ _ _
  | .gcpDeleteDisk _ _ _ | .beginDelete _ _ => true
  | _ => false

/-- The requests that change nothing: reads of the cloud, and waiting between them. -/
def AdapterRequest.passive : AdapterRequest → Bool
  | .read _ | .pause => true
  | _ => false

theorem neither_of_passive (passive : request.passive = true) :
    request.creates = false ∧ request.destroys = false := by
  cases request with
  | read | pause => exact ⟨rfl, rfl⟩
  | _ => cases passive

/-! ## Reading -/

/-- A program that only reads. -/
def reading {α : Type} : Program CloudCalls α → Program AdapterCalls α
  | .done value => .done value
  | .call request next => .call (.read request) fun reply => reading (next reply)

def Read (x : Exchange CloudCalls) : Exchange AdapterCalls := ⟨.read x.request, x.reply⟩

section Reading

variable {α β : Type} {program : Program CloudCalls α} {trace : List (Exchange AdapterCalls)}

theorem reading_returns {value : α} (run : (reading program).Returns trace value) :
    ∃ reads, trace = reads.map Read ∧ program.Returns reads value := by
  induction program generalizing trace with
  | done result =>
    obtain ⟨rfl, rfl⟩ := returns_done.mp run
    exact ⟨[], rfl, .start _⟩
  | call request next ih =>
    obtain ⟨reply, later, rfl, rest⟩ := returns_call.mp run
    obtain ⟨reads, rfl, runs⟩ := ih reply rest
    exact ⟨⟨request, reply⟩ :: reads, rfl, returns_call.mpr ⟨reply, reads, rfl, runs⟩⟩

theorem reading_reaches (run : (reading program).Reaches trace request) :
    ∃ asked, request = .read asked := by
  induction program generalizing trace with
  | done value => exact absurd run not_reaches_done
  | call asked goesOn ih =>
    obtain ⟨_, same⟩ | ⟨reply, later, _, rest⟩ := reaches_call run
    · exact ⟨asked, same⟩
    · exact ih reply rest

theorem reading_only : ∀ program : Program CloudCalls α, (reading program).Only fun request : AdapterRequest => request.passive = true
  | .done _ => trivial
  | .call _ next => ⟨rfl, fun reply => reading_only (next reply)⟩

/-- What is asked for after some reads, if it is not a read itself. -/
theorem reaches_after {next : α → Program AdapterCalls β} (other : ∀ asked, request ≠ .read asked)
    (run : (reading program >>= next).Reaches trace request) :
    ∃ reads later value, trace = reads.map Read ++ later ∧ program.Returns reads value ∧
      (next value).Reaches later request := by
  obtain inside | ⟨first, second, value, rfl, runs, ends⟩ := reaches_bind run
  · obtain ⟨asked, same⟩ := reading_reaches inside
    exact absurd same (other asked)
  · obtain ⟨reads, rfl, returned⟩ := reading_returns runs
    exact ⟨reads, second, value, rfl, returned, ends⟩

/-- The same after a single read. -/
theorem reaches_read {asked : CloudRequest} {next : CloudReply asked → Program AdapterCalls β}
    (other : ∀ asked, request ≠ .read asked)
    (run : (ask (S := AdapterCalls) (.read asked) >>= next).Reaches trace request) :
    ∃ reply later, trace = Read ⟨asked, reply⟩ :: later ∧ (next reply).Reaches later request := by
  obtain ⟨_, same⟩ | goesOn := reaches_ask run
  · exact absurd same (other asked)
  · exact goesOn

end Reading

/-! ## What the controller reads -/

namespace Command

variable (p : Command)

def observe (a : Allocation) : Program CloudCalls (Observation × Option GoError) :=
  if a.resources.length > 0 ∧ p.config.kind ≠ "aws" ∧ p.config.kind ≠ "azure" then
    return ({}, some (.new "provider cannot reconcile recorded cloud dependencies"))
  else
    match validateName a.id with
    | some e => return ({}, some e)
    | none =>
      match p.validate with
      | some e => return ({}, some e)
      | none =>
        if p.config.kind = "aws" then observeAWS p a
        else if p.config.kind = "azure" then observeAzure p a
        else observeGCP p a

def reconcileCreation (a : Allocation) : Program CloudCalls (Observation × Option GoError) :=
  if a.phase ≠ .creating then
    return ({}, some (.new "creation reconciliation requires committed intent"))
  else if p.config.kind ≠ "azure" then p.observe a
  else
    match validateName a.id with
    | some e => return ({}, some e)
    | none =>
      match p.validate with
      | some e => return ({}, some e)
      | none => reconcileAzureCreation p a

end Command

end RunnerScout.Provider
