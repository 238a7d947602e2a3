import RunnerScout.Configapi.Secrets
import RunnerScout.Operator.Encoding

/-! # Loading a configuration

`Read` collects the objects of a scale set and looks at all of them again; `Load` does
so once more after it has resolved the Secrets.  `Loaded.Key` is what a running worker
is compared with.
-/

namespace RunnerScout.Configapi

open Interaction

structure Revision where
  resource : String
  name : String
  uid : String
  resourceVersion : String
  generation : Int
deriving DecidableEq

def Unstructured.revision (u : Unstructured) (resource name : String) : Revision where
  resource := resource
  name := name
  uid := u.metadata.uid
  resourceVersion := u.metadata.resourceVersion
  generation := u.metadata.generation

structure Loaded where
  snapshot : Snapshot
  resolved : Resolved
  credentials : Credentials
  revisions : List Revision

section Load

variable (checks : Checks) (sha256 : List UInt8 → String) (space : String)

/-- The closure `get` of `Read`, with the revision it appends. -/
def getObject {σ : Type} (resource kind name : String) (decode : Spec → Option σ) :
    Fallible (Configuration σ × Revision) := do
  let u ← (Attempt.of (ask (.get resource space name))).orElse (.new "cannot read configuration dependency")
  if u.metadata.space ≠ space ∨ u.metadata.name ≠ name ∨ u.apiVersion ≠ apiVersion ∨ u.kind ≠ kind
      ∨ u.metadata.uid = "" ∨ u.metadata.resourceVersion = "" then
    throw (.new "configuration dependency identity is invalid")
  else if u.size > 4 * 2 ^ 20 then throw (.new "configuration dependency exceeds decoding limits")
  else
    match decode u.spec with
    | none => throw (.new "configuration dependency has unsupported fields or types")
    | some spec => return ({ metadata := u.metadata, spec, status := u.status }, u.revision resource name)

/-- The loop over the providers of the class. -/
def getProviders : List String → GoMap String ProviderConfig → List Revision →
    Fallible (GoMap String ProviderConfig × List Revision)
  | [], providers, revisions => return (providers, revisions)
  | ref :: rest, providers, revisions =>
    if ref ∈ providers then throw (.new "duplicate provider reference")
    else do
      let p ← getObject space "providerconfigs" "ProviderConfig" ref Spec.provider?
      getProviders rest (providers.insert ref p.1) (revisions ++ [p.2])

/-- An object that is only read when it is referred to. -/
def getReferenced {σ : Type} (resource kind : String) (decode : Spec → Option σ) (revisions : List Revision) :
    Option String → Fallible (Option (Configuration σ) × List Revision)
  | none => return (none, revisions)
  | some ref => do
    let object ← getObject space resource kind ref decode
    return (some object.1, revisions ++ [object.2])

def recheck : List Revision → Fallible Unit
  | [] => return ()
  | rev :: rest => do
    let u ← (Attempt.of (ask (.get rev.resource space rev.name))).orElse (.new "cannot verify configuration snapshot")
    if u.metadata.uid ≠ rev.uid ∨ u.metadata.resourceVersion ≠ rev.resourceVersion ∨ u.metadata.space ≠ space
        ∨ u.metadata.name ≠ rev.name then
      throw errChanged
    else recheck rest

/-- The first collection of `Read`. -/
def collect (name : String) : Fallible (Snapshot × List Revision) := do
  let scaleSet ← getObject space "runnerscalesets" "RunnerScaleSet" name Spec.scaleSet?
  let runnerClass ← getObject space "runnerclasses" "RunnerClass" scaleSet.1.spec.runnerClassRef Spec.class?
  let catalog ← getObject space "capacitycatalogs" "CapacityCatalog" runnerClass.1.spec.catalogRef Spec.catalog?
  if runnerClass.1.spec.providers.length < 1 ∨ runnerClass.1.spec.providers.length > 16 then
    throw (.new "runner class must reference 1..16 providers")
  else
    let providers ← getProviders space runnerClass.1.spec.providers ∅ [scaleSet.2, runnerClass.2, catalog.2]
    let network ← getReferenced space "networkprofiles" "NetworkProfile" Spec.network? providers.2
      runnerClass.1.spec.networkRef
    let budget ← getReferenced space "capacitybudgets" "CapacityBudget" Spec.budget? network.2
      scaleSet.1.spec.budgetRef
    return ({ scaleSet := scaleSet.1, runnerClass := runnerClass.1, catalog := catalog.1, providers := providers.1
              network := network.1, budget := budget.1 }, budget.2)

def read (name : String) : Fallible (Snapshot × List Revision) := do
  let collected ← collect space name
  recheck space collected.2
  let _ ← Attempt.result (compile checks collected.1)
  return collected

def load (name : String) : Fallible Loaded := do
  let collected ← read checks space name
  let resolved ← Attempt.result (compile checks collected.1)
  let credentials ← resolveSecrets checks sha256 resolved
  recheck space collected.2
  return { snapshot := collected.1, resolved, credentials, revisions := collected.2 }

end Load

/-! ## The key -/

section Key

open Json

def SecretKeyReference.members (ref : SecretKeyReference) : List (String × Option Json) :=
  [("name", some (.str ref.name)), ("key", some (.str ref.key))]

def GitHubAuthentication.members (auth : GitHubAuthentication) : List (String × Option Json) :=
  [("mode", some (.str auth.mode)),
    ("secretRef", some (record auth.secretRef.members)),
    ("appClientID", omitEmpty "" .str auth.appClientID),
    ("appInstallationID", omitEmpty 0 .int auth.appInstallationID)]

def NetworkMapping.members (m : NetworkMapping) : List (String × Option Json) :=
  [("providerRef", some (record [("name", some (.str m.providerRef))])),
    ("region", some (.str m.region)),
    ("networkID", some (.str m.networkID)),
    ("subnetID", some (.str m.subnetID)),
    ("cidrs", some (strings m.cidrs))]

def NetworkProfileSpec.members (spec : NetworkProfileSpec) : List (String × Option Json) :=
  [("mode", some (.str spec.mode)),
    ("mappings", some (.array (spec.mappings.map fun m => record m.members))),
    ("allowedServices", omitEmpty [] strings spec.allowedServices),
    ("enrollmentRef", spec.enrollmentRef.map fun ref => record ref.members)]

/-- A map, its keys in their order. -/
def mapDocument {V : Type} (encode : V → Json) (m : GoMap String V) : Json :=
  .object ((m.keys.insertionSort (· ≤ ·)).filterMap fun key => (m.lookup key).map fun value => (key, encode value))

/-- A referenced object, without its version. -/
def Revision.identity (rev : Revision) : Json :=
  record [("Resource", some (.str rev.resource)), ("Name", some (.str rev.name)), ("UID", some (.str rev.uid))]

/-- A Secret, by its content. -/
def SecretRevision.identity (rev : SecretRevision) : Json :=
  record [("Name", some (.str rev.name)), ("UID", some (.str rev.uid)), ("ContentHash", some (.str rev.contentHash))]

variable (catalogDocument : Placement.Catalog → Json)

def Loaded.members (l : Loaded) : List (String × Option Json) :=
  [("Config", some (l.resolved.config.document catalogDocument)),
    ("Auth", some (record l.resolved.auth.members)),
    ("References", some (mapDocument (mapDocument fun ref => record ref.members) l.resolved.credentials)),
    ("Suspend", some (.bool l.resolved.suspend)),
    ("Network", some (l.snapshot.network.elim .null fun n => record n.spec.members)),
    ("Identities", some (.array (l.revisions.map Revision.identity))),
    ("Secrets", some (.array (l.credentials.revisions.map SecretRevision.identity)))]

/-- `digest` stands for the hash of a document, in hexadecimal. -/
def Loaded.key {δ : Type} (digest : Json → δ) (l : Loaded) : δ := digest (record (l.members catalogDocument))

end Key

end RunnerScout.Configapi
