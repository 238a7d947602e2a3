import RunnerScout.Netip
import RunnerScout.Operator.Fleet

/-! # The configuration API

The custom resources a scale set is configured by, as they are stored and as they are
decoded, and the Secrets and ConfigMaps next to them.  A `LocalReference` is the name
it holds.
-/

namespace RunnerScout.Configapi

/-! ## Metadata -/

structure ObjectMeta where
  name : String := ""
  space : String := ""
  uid : String := ""
  resourceVersion : String := ""
  generation : Int := 0
  deletionTimestamp : Option Time := none
  finalizers : List String := []
  labels : GoMap String String := ∅
  annotations : GoMap String String := ∅
deriving DecidableEq

structure Condition where
  type : String
  status : String
  reason : String
  message : String
  observedGeneration : Int
  lastTransitionTime : Time
deriving DecidableEq

structure ConfigurationStatus where
  observedGeneration : Int := 0
  conditions : List Condition := []
deriving DecidableEq

/-- An object of the API, with the specification of its kind. -/
structure Configuration (Spec : Type) where
  metadata : ObjectMeta
  spec : Spec
  status : ConfigurationStatus := {}
deriving DecidableEq

/-! ## Specifications -/

structure SecretKeyReference where
  name : String
  key : String
deriving DecidableEq

structure ProviderConnection where
  kind : String
  accountID : String := ""
  subscription : String := ""
  resourceGroup : String := ""
  sshPublicKey : String := ""
  project : String := ""
  profile : String := ""
  subnet : String
  securityGroup : String := ""
deriving DecidableEq

structure ProviderConfigSpec where
  connection : ProviderConnection
  credentialEnvironment : GoMap String SecretKeyReference := ∅
deriving DecidableEq

structure Resources where
  cpu : Int
  memoryMiB : Int
  architecture : String
  vendor : String := ""
  capabilities : List String := []
deriving DecidableEq

structure PlacementPolicy where
  policy : String
  regions : List String
  maxPriceMicros : Int
  allowOnDemand : Bool
deriving DecidableEq

structure RetryPolicy where
  enabled : Bool := false
  maxRetries : Int := 0
  acknowledgeRepeatedEffects : Bool := false
deriving DecidableEq

structure RunnerClassSpec where
  resources : Resources
  placement : PlacementPolicy
  providers : List String
  catalogRef : String
  networkRef : Option String := none
  retry : RetryPolicy := {}
deriving DecidableEq

structure GitHubAuthentication where
  mode : String
  secretRef : SecretKeyReference
  appClientID : String := ""
  appInstallationID : Int := 0
deriving DecidableEq

structure GitHubScaleSet where
  url : String
  scaleSetID : Int
  auth : GitHubAuthentication
deriving DecidableEq

structure RunnerScaleSetSpec where
  runnerClassRef : String
  gitHub : GitHubScaleSet
  maxRunners : Int
  provisioningSeconds : Int
  maxLifetimeSeconds : Int
  suspend : Bool := false
  budgetRef : Option String := none
deriving DecidableEq

structure CapacityCatalogSpec where
  offerings : List Placement.Offering := []
  complete : GoMap String Bool := ∅
  priceRefresh : GoMap String Bool := ∅
deriving DecidableEq

structure NetworkMapping where
  providerRef : String
  region : String
  networkID : String
  subnetID : String
  cidrs : List String
deriving DecidableEq

structure NetworkProfileSpec where
  mode : String
  mappings : List NetworkMapping := []
  allowedServices : List String := []
  enrollmentRef : Option SecretKeyReference := none
deriving DecidableEq

structure CapacityBudgetSpec where
  dailyBudgetMicros : Int
deriving DecidableEq

abbrev RunnerScaleSet := Configuration RunnerScaleSetSpec

abbrev RunnerClass := Configuration RunnerClassSpec

abbrev CapacityCatalog := Configuration CapacityCatalogSpec

abbrev ProviderConfig := Configuration ProviderConfigSpec

abbrev NetworkProfile := Configuration NetworkProfileSpec

abbrev CapacityBudget := Configuration CapacityBudgetSpec

/-! ## Stored objects -/

/-- What the strict decoder makes of the specification of a stored object, in the type
    of the object's own kind. -/
inductive Spec where
  | runnerScaleSet (spec : RunnerScaleSetSpec)
  | runnerClass (spec : RunnerClassSpec)
  | capacityCatalog (spec : CapacityCatalogSpec)
  | providerConfig (spec : ProviderConfigSpec)
  | networkProfile (spec : NetworkProfileSpec)
  | capacityBudget (spec : CapacityBudgetSpec)
  | unsupported
deriving DecidableEq

/-- An object of the dynamic client; `size` is the length of its JSON document. -/
structure Unstructured where
  apiVersion : String
  kind : String
  metadata : ObjectMeta
  spec : Spec
  status : ConfigurationStatus := {}
  size : Nat := 0
deriving DecidableEq

structure Secret where
  metadata : ObjectMeta
  data : GoMap String (List UInt8) := ∅
deriving DecidableEq

structure ConfigMap where
  metadata : ObjectMeta
  data : GoMap String String := ∅
deriving DecidableEq

/-- `api.Group + "/" + api.Version`. -/
def apiVersion : String := "runnerscout.io/v1alpha1"

def Spec.scaleSet? : Spec → Option RunnerScaleSetSpec
  | .runnerScaleSet spec => some spec
  | _ => none

def Spec.class? : Spec → Option RunnerClassSpec
  | .runnerClass spec => some spec
  | _ => none

def Spec.catalog? : Spec → Option CapacityCatalogSpec
  | .capacityCatalog spec => some spec
  | _ => none

def Spec.provider? : Spec → Option ProviderConfigSpec
  | .providerConfig spec => some spec
  | _ => none

def Spec.network? : Spec → Option NetworkProfileSpec
  | .networkProfile spec => some spec
  | _ => none

def Spec.budget? : Spec → Option CapacityBudgetSpec
  | .capacityBudget spec => some spec
  | _ => none

/-- `Snapshot` is the full dependency set of one scale set. -/
structure Snapshot where
  scaleSet : RunnerScaleSet
  runnerClass : RunnerClass
  catalog : CapacityCatalog
  providers : GoMap String ProviderConfig
  network : Option NetworkProfile := none
  budget : Option CapacityBudget := none
deriving DecidableEq

structure Resolved where
  config : Operator.Config
  auth : GitHubAuthentication
  credentials : GoMap String (GoMap String SecretKeyReference)
  suspend : Bool

end RunnerScout.Configapi
