import RunnerScout.Provider.Cloud

/-! # The EC2 inventory of one allocation

`awsInventory` lists the instance of an allocation, then the volumes and network
interfaces tagged as its own, re-reads every recorded dependency, and checks that
all of them belong together.  `AwsInventory.observation` turns the result into what
the controller is told.
-/

namespace RunnerScout.Provider

open Interaction Program Lifecycle

/-- `vm` is the source's `instance`. -/
structure AwsInventory where
  vm : Option AwsInstance := none
  volumes : GoMap String AwsVolume := ∅
  interfaces : GoMap String AwsInterface := ∅

/-- The tag map, unless a key occurs twice. -/
def tagValues : List AwsTag → GoMap String String → Option (GoMap String String)
  | [], values => some values
  | tag :: rest, values =>
    if (values.lookup tag.key).isSome then none else tagValues rest (values.insert tag.key tag.value)

def awsOwned (tags : List AwsTag) (owner allocation : String) : Bool :=
  match tagValues tags ∅ with
  | none => false
  | some values =>
    (values.lookup "runnerscout-owner").getD "" = owner
      && (values.lookup "runnerscout-operation").getD "" = allocation

/-! ## Listings -/

/-- The token of the next page added to those seen, if there is a next page. -/
def awsNext (token : String) (seen : List String) : Except GoError (Option (List String)) :=
  if token = "" then .ok none
  else if seen.contains token ∨ seen.length ≥ 100 then
    .error (.new "AWS inventory pagination invalid or excessive")
  else .ok (some (token :: seen))

/-- One turn of a listing loop.  `page` reads one page into the accumulator and gives
    the token of the next one, or none where the source leaves the loop early. -/
def awsPage {σ : Type} (page : σ → String → Program CloudCalls (Except GoError (σ × Option String)))
    (more : List String → σ → String → Program CloudCalls (Except GoError σ)) (seen : List String) (s : σ)
    (token : String) : Program CloudCalls (Except GoError σ) := do
  match ← page s token with
  | .error e => return .error e
  | .ok (s, none) => return .ok s
  | .ok (s, some next) =>
    match awsNext next seen with
    | .error e => return .error e
    | .ok none => return .ok s
    | .ok (some seen) => more seen s next

/-- A listing loop.  The count of pages left only makes the recursion structural:
    `awsNext` refuses a hundred-and-first token. -/
def awsPages {σ : Type} (page : σ → String → Program CloudCalls (Except GoError (σ × Option String))) :
    Nat → List String → σ → String → Program CloudCalls (Except GoError σ)
  | 0 => awsPage page fun _ _ _ => return .error (.new "AWS inventory pagination invalid or excessive")
  | remaining + 1 => awsPage page (awsPages page remaining)

section Listings

variable (p : Command) (a : Allocation)

def awsInstanceOwned (i : AwsInstance) : Bool :=
  if i.instanceID = "" ∨ i.clientToken ≠ a.id ∨ !awsOwned i.tags p.config.owner a.id
      ∨ i.zone ≠ some a.offering.zone ∨ i.state = none then
    false
  else if i.state ≠ some "terminated" ∧ i.subnetID ≠ p.config.subnet then false
  else
    ["pending", "running", "shutting-down", "terminated", "stopping", "stopped"].contains (i.state.getD "")

def readInstances : List AwsInstance → AwsInventory → Except GoError AwsInventory
  | [], s => .ok s
  | i :: rest, s =>
    if s.vm.isSome ∨ !awsInstanceOwned p a i then
      .error (.new "AWS instance ownership or identity unconfirmed")
    else readInstances rest { s with vm := some i }

def readReservations : List AwsReservation → AwsInventory → Except GoError AwsInventory
  | [], s => .ok s
  | r :: rest, s =>
    if r.ownerID ≠ p.config.accountID then .error (.new "AWS reservation account mismatch")
    else
      match readInstances p a r.instances s with
      | .error e => .error e
      | .ok s => readReservations rest s

def instanceSelector : AwsSelector :=
  if a.resourceID ≠ "" then .ids [a.resourceID] else .clientToken a.id

def instancePage (s : AwsInventory) (token : String) :
    Program CloudCalls (Except GoError (AwsInventory × Option String)) := do
  match ← ask (S := CloudCalls) (.describeInstances (instanceSelector a) token) with
  | .error e =>
    if a.resourceID ≠ "" ∧ awsMissing e "InvalidInstanceID.NotFound" then return .ok (s, none)
    else return .error (.new "AWS instance inventory unavailable")
  | .ok none => return .error (.new "AWS instance inventory unavailable")
  | .ok (some page) =>
    if !page.known then return .error (.new "AWS instance inventory unavailable")
    else if a.resourceID ≠ "" ∧ page.items.length = 0 then
      return .error (.new "AWS instance response omitted requested identity")
    else
      match readReservations p a page.items s with
      | .error e => return .error e
      | .ok s => return .ok (s, some page.nextToken)

def readVolumes : List AwsVolume → AwsInventory → Except GoError AwsInventory
  | [], s => .ok s
  | v :: rest, s =>
    if (s.volumes.lookup v.volumeID).isSome ∨ v.volumeID = "" ∨ !awsOwned v.tags p.config.owner a.id
        ∨ v.zone ≠ a.offering.zone then
      .error (.new "AWS volume ownership unconfirmed")
    else readVolumes rest { s with volumes := s.volumes.insert v.volumeID v }

def volumePage (s : AwsInventory) (token : String) :
    Program CloudCalls (Except GoError (AwsInventory × Option String)) := do
  match ← ask (S := CloudCalls) (.describeVolumes (.owned p.config.owner a.id) token) with
  | .ok (some page) =>
    if !page.known then return .error (.new "AWS volume inventory unavailable")
    else
      match readVolumes p a page.items s with
      | .error e => return .error e
      | .ok s => return .ok (s, some page.nextToken)
  | _ => return .error (.new "AWS volume inventory unavailable")

def interfaceOwned (n : AwsInterface) : Bool :=
  awsOwned n.tags p.config.owner a.id && n.ownerID = p.config.accountID && n.zone = a.offering.zone
    && n.subnetID = p.config.subnet

def readInterfaces : List AwsInterface → AwsInventory → Except GoError AwsInventory
  | [], s => .ok s
  | n :: rest, s =>
    if (s.interfaces.lookup n.interfaceID).isSome ∨ n.interfaceID = "" ∨ !interfaceOwned p a n then
      .error (.new "AWS network interface ownership unconfirmed")
    else readInterfaces rest { s with interfaces := s.interfaces.insert n.interfaceID n }

def interfacePage (s : AwsInventory) (token : String) :
    Program CloudCalls (Except GoError (AwsInventory × Option String)) := do
  match ← ask (S := CloudCalls) (.describeNetworkInterfaces (.owned p.config.owner a.id) token) with
  | .ok (some page) =>
    if !page.known then return .error (.new "AWS network interface inventory unavailable")
    else
      match readInterfaces p a page.items s with
      | .error e => return .error e
      | .ok s => return .ok (s, some page.nextToken)
  | _ => return .error (.new "AWS network interface inventory unavailable")

/-! ## Recorded dependencies -/

/-- A recorded identity is read again directly, so that a lost tag cannot erase it. -/
def awsRecordedDependency (reference : ResourceReference) (s : AwsInventory) :
    Program CloudCalls (Except GoError AwsInventory) := do
  if reference.kind = "aws-volume" then
    if !startsWith reference.id "vol-" then return .error (.new "AWS recorded volume identity invalid")
    else
      match ← ask (S := CloudCalls) (.describeVolumes (.ids [reference.id]) "") with
      | .error e =>
        if awsMissing e "InvalidVolume.NotFound" then
          return .ok { s with volumes := s.volumes.erase reference.id }
        else return .error (.new "AWS recorded volume observation unavailable")
      | .ok (some { items := [v], nextToken := _, known := true }) =>
        if v.volumeID ≠ reference.id ∨ !awsOwned v.tags p.config.owner a.id ∨ v.zone ≠ a.offering.zone then
          return .error (.new "AWS recorded volume ownership changed")
        else return .ok { s with volumes := s.volumes.insert reference.id v }
      | .ok _ => return .error (.new "AWS recorded volume observation unavailable")
  else if reference.kind = "aws-network-interface" then
    if !startsWith reference.id "eni-" then return .error (.new "AWS recorded interface identity invalid")
    else
      match ← ask (S := CloudCalls) (.describeNetworkInterfaces (.ids [reference.id]) "") with
      | .error e =>
        if awsMissing e "InvalidNetworkInterfaceID.NotFound" then
          return .ok { s with interfaces := s.interfaces.erase reference.id }
        else return .error (.new "AWS recorded interface observation unavailable")
      | .ok (some { items := [n], nextToken := _, known := true }) =>
        if n.interfaceID ≠ reference.id ∨ !interfaceOwned p a n then
          return .error (.new "AWS recorded interface ownership changed")
        else return .ok { s with interfaces := s.interfaces.insert reference.id n }
      | .ok _ => return .error (.new "AWS recorded interface observation unavailable")
  else return .error (.new "unsupported AWS dependency kind")

def recordedDependencies : List ResourceReference → AwsInventory →
    Program CloudCalls (Except GoError AwsInventory)
  | [], s => return .ok s
  | reference :: rest, s => do
    match ← awsRecordedDependency p a reference s with
    | .error e => return .error e
    | .ok s => recordedDependencies rest s

/-- Everything to read again: what is recorded and what the instance is bound to. -/
def dependencyReferences (s : AwsInventory) : List ResourceReference :=
  match s.vm with
  | none => a.resources
  | some i =>
    a.resources
      ++ i.blockDevices.filterMap (fun device => device.volumeID.map fun id => ⟨"aws-volume", id, ""⟩)
      ++ i.interfaces.map fun network => ⟨"aws-network-interface", network.interfaceID, ""⟩

/-! ## The inventory -/

def AwsInventory.validateBindings (s : AwsInventory) (instanceID : String) : Option GoError :=
  let instanceID := match s.vm with
    | some i => i.instanceID
    | none => instanceID
  if s.volumes.entries.any (fun entry => entry.2.attachments.any fun id => instanceID = "" || id ≠ instanceID) then
    some (.new "AWS volume attached outside its allocation")
  else if s.interfaces.entries.any
      (fun entry => entry.2.attachment.any fun id => instanceID = "" || id ≠ instanceID) then
    some (.new "AWS network interface attached outside its allocation")
  else
    match s.vm with
    | none => none
    | some i =>
      if i.state = some "terminated" then none
      else if i.blockDevices.any (fun device => device.volumeID.any fun id => (s.volumes.lookup id).isNone) then
        some (.new "AWS instance has an unowned or unobserved EBS attachment")
      else if i.interfaces.any (fun network => (s.interfaces.lookup network.interfaceID).isNone) then
        some (.new "AWS instance has an unowned or unobserved network attachment")
      else none

/-- The recorded references `awsInventory` refuses to reason about. -/
def unsupportedReference : List ResourceReference → Option GoError
  | [] => none
  | reference :: rest =>
    if reference.uid ≠ "" then some (.new "unsupported AWS dependency generation")
    else if reference.kind ≠ "aws-volume" ∧ reference.kind ≠ "aws-network-interface" then
      some (.new "unsupported AWS dependency kind")
    else unsupportedReference rest

/-- The durable instance identity may not change. -/
def identityChanged (s : AwsInventory) : Bool :=
  match s.vm with
  | none => false
  | some i => a.resourceID ≠ "" && a.resourceID ≠ i.instanceID

def awsInventory : Program CloudCalls (Except GoError AwsInventory) := do
  match unsupportedReference a.resources with
  | some e => return .error e
  | none =>
    match ← awsPages (instancePage p a) 100 [] {} "" with
    | .error e => return .error e
    | .ok s =>
      if identityChanged a s then return .error (.new "AWS durable instance identity changed")
      else
        match ← awsPages (volumePage p a) 100 [] s "" with
        | .error e => return .error e
        | .ok s =>
          match ← awsPages (interfacePage p a) 100 [] s "" with
          | .error e => return .error e
          | .ok s =>
            match mergeResources [] (dependencyReferences a s) with
            | .error e => return .error e
            | .ok (references, _) =>
              match ← recordedDependencies p a references s with
              | .error e => return .error e
              | .ok s =>
                match s.validateBindings a.resourceID with
                | some e => return .error e
                | none => return .ok s

/-! ## The observation -/

def AwsInventory.present (s : AwsInventory) : Bool :=
  (match s.vm with
    | some i => i.state ≠ some "terminated"
    | none => false)
    || s.volumes.entries.length > 0 || s.interfaces.entries.length > 0

def AwsInventory.interrupted (s : AwsInventory) : Bool :=
  !s.present && a.offering.spot &&
    match s.vm with
    | some i => i.state = some "terminated" && i.stateReason = some "Server.SpotInstanceTermination"
    | none => false

def AwsInventory.observation (s : AwsInventory) : Observation × Option GoError :=
  let id := match s.vm with
    | some i => i.instanceID
    | none => a.resourceID
  if s.present ∧ id = "" then
    ({}, some (.new "AWS residual resources retain an unknown instance identity"))
  else if id ≠ "" ∧ (!startsWith id "i-" ∨ containsAny id " /\n\r\t") then
    ({}, some (.new "AWS durable instance identity invalid"))
  else
    let references := a.resources ++ s.volumes.keys.map (fun id => ⟨"aws-volume", id, ""⟩)
      ++ s.interfaces.keys.map (fun id => ⟨"aws-network-interface", id, ""⟩)
    match mergeResources [] references with
    | .error e => ({}, some e)
    | .ok (references, _) =>
      ({ known := true
         present := s.present
         interrupted := s.interrupted a
         resourceID := id
         resources := references }, none)

def observeAWS : Program CloudCalls (Observation × Option GoError) := do
  match ← ask (S := CloudCalls) (.awsSession a.offering.region) with
  | some e => return ({}, some e)
  | none =>
    match ← awsInventory p a with
    | .error e => return ({}, some e)
    | .ok s => return s.observation a

end Listings

end RunnerScout.Provider
