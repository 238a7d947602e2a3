import RunnerScout.Lifecycle.Allocation
import RunnerScout.Provider.Cloud
import RunnerScout.Recovery

/-! # The configuration and the durable fleet record

The configuration of one scale set with its checks, the record in which the
operator keeps everything that is not part of a single allocation, and the pure
calculations made on them: admission slots and the daily budget.
-/

namespace RunnerScout.Operator

open Lifecycle Placement Recovery

/-! ## Configuration -/

structure Config where
  catalogPath : String := ""
  name : String
  space : String := "default"
  gitHubURL : String := ""
  scaleSetID : Int := 1
  maxRunners : Int := 1
  provisioningSeconds : Int := 1
  maxLifetimeSeconds : Int := 1
  requirements : Requirements := {}
  catalog : Catalog := {}
  providers : GoMap String Provider.Config := ∅
  retry : Policy := {}
  awsPriceRefresh : Bool := false
  azurePriceRefresh : Bool := false
  gcpPriceRefresh : Bool := false
  azureInterruptionQueueURL : String := ""
  networkProfile : String := ""
  networkOverlayCIDRs : List String := []
  budgetDailyMicros : Int := 0

/-- The text checks of `Config.Validate` that are made by parsers of other packages:
    a DNS-1123 label, a canonical network prefix, an HTTPS URL of GitHub.com. -/
structure TextChecks where
  label : String → Bool
  overlayCIDR : String → Bool
  gitHubURL : String → Bool

/-- The loop of `Validate` over the required providers. -/
def Config.validateProviders (c : Config) : List String → Option GoError
  | [] => none
  | name :: rest =>
    match c.providers.lookup name with
    | none => some (.new "missing provider configuration")
    | some p =>
      match Provider.validateName name with
      | some e => some e
      | none =>
        if p.owner ≠ c.name then some (.new "provider owner must match controller name")
        else
          match Provider.Command.validate { config := p } with
          | some e => some e
          | none => c.validateProviders rest

def Config.validate (checks : TextChecks) (c : Config) : Option GoError :=
  match Provider.validateName c.name with
  | some e => some e
  | none =>
    if c.networkProfile ≠ "" ∧ !checks.label c.networkProfile then some (.new "invalid network profile name")
    else if c.networkProfile = "" ∧ c.networkOverlayCIDRs.length ≠ 0 then
      some (.new "overlay CIDRs require a wireguard network profile")
    else if c.networkProfile ≠ "" ∧ c.networkOverlayCIDRs.length = 0 then
      some (.new "wireguard network profile requires overlay CIDRs")
    else if c.networkProfile ≠ "" ∧ !c.networkOverlayCIDRs.all checks.overlayCIDR then
      some (.new "invalid overlay CIDR")
    else if c.space = "" ∨ c.scaleSetID < 1 ∨ c.maxRunners < 1 ∨ c.maxRunners > 10 ∨ c.provisioningSeconds < 1
        ∨ c.provisioningSeconds > 600 ∨ c.maxLifetimeSeconds < c.provisioningSeconds
        ∨ c.maxLifetimeSeconds > 21600 then
      some (.new "invalid namespace, scale set, capacity or time limits")
    else if c.budgetDailyMicros < 0 then some (.new "budget ceiling cannot be negative")
    else if !checks.gitHubURL c.gitHubURL then
      some (.new "GitHub.com organization or repository HTTPS URL required")
    else
      match c.requirements.validate with
      | some e => some e
      | none => c.validateProviders c.requirements.providers

/-- What the binding digest is taken of: the configuration without its catalog and
    budget, its limit replaced.  The digest is identified with its content. -/
structure Binding where
  name : String
  space : String
  gitHubURL : String
  scaleSetID : Int
  maxRunners : Int
  provisioningSeconds : Int
  maxLifetimeSeconds : Int
  requirements : Requirements
  /-- In the order of the names, as a map is encoded. -/
  providers : List (String × Provider.Config)
  retry : Policy
  awsPriceRefresh : Bool
  azurePriceRefresh : Bool
  gcpPriceRefresh : Bool
  azureInterruptionQueueURL : String
  networkProfile : String
  networkOverlayCIDRs : List String
deriving DecidableEq

def Config.bindingWithLimit (c : Config) (limit : Int) : Binding where
  name := c.name
  space := c.space
  gitHubURL := c.gitHubURL
  scaleSetID := c.scaleSetID
  maxRunners := limit
  provisioningSeconds := c.provisioningSeconds
  maxLifetimeSeconds := c.maxLifetimeSeconds
  requirements := c.requirements
  providers := (c.providers.entries.map fun entry => (entry.1, entry.2)).insertionSort fun a b => a.1 ≤ b.1
  retry := c.retry
  awsPriceRefresh := c.awsPriceRefresh
  azurePriceRefresh := c.azurePriceRefresh
  gcpPriceRefresh := c.gcpPriceRefresh
  azureInterruptionQueueURL := c.azureInterruptionQueueURL
  networkProfile := c.networkProfile
  networkOverlayCIDRs := c.networkOverlayCIDRs

def Config.binding (c : Config) : Binding := c.bindingWithLimit 0

/-! ## Admission -/

structure AdmissionState where
  cohort : UInt64 := 0
  admitted : Int := 0
  resetObserved : Bool := false
deriving DecidableEq, Repr

/-- The new slots, and the state they leave. -/
def AdmissionState.reconcile (s : AdmissionState) (demand active limit : Int) (cleanupConfirmed : Bool) :
    Except GoError (Int × AdmissionState) :=
  if demand < 0 ∨ active < 0 ∨ limit < 1 ∨ limit > 100 ∨ active > 100 ∨ s.admitted < 0 ∨ s.admitted > 100 then
    .error (.new "invalid admission bounds")
  else
    let s := if demand = 0 then { s with resetObserved := true } else s
    let s :=
      if s.resetObserved ∧ cleanupConfirmed ∧ active = 0 then
        { s with cohort := s.cohort + 1, admitted := 0, resetObserved := false }
      else s
    let desired := min demand limit
    let n := min (max 0 (desired - s.admitted)) (max 0 (max 0 (limit - active)))
    .ok (n, { s with admitted := s.admitted + n })

/-! ## The fleet -/

/-- A rerun request whose outcome GitHub never confirmed. -/
structure PendingRerun where
  attempt : Int
  jobID : Int
  notFoundPolls : Int := 0
deriving DecidableEq, Repr

structure Fleet where
  bindingVersion : Int := 0
  condition : String := ""
  binding : Option Binding := none
  released : GoMap String Bool := ∅
  admission : AdmissionState := {}
  created : GoMap String Time := ∅
  reserved : GoMap String Int := ∅
  pending : GoMap String Allocation := ∅
  retriesUsedByRun : GoMap Int Int := ∅
  pendingReruns : GoMap Int PendingRerun := ∅
  pruned : GoMap String Bool := ∅

namespace Fleet

def isReleased (f : Fleet) (id : String) : Bool := (f.released.lookup id).getD false

def isPruned (f : Fleet) (id : String) : Bool := (f.pruned.lookup id).getD false

def retriesUsed (f : Fleet) (run : Int) : Int := (f.retriesUsedByRun.lookup run).getD 0

/-- The checks `readFleet` makes of a stored fleet, and what it makes of the rest. -/
def bind (f : Fleet) (c : Config) : Except GoError Fleet :=
  let legacyMatch := f.bindingVersion = 0 ∧
    (List.range 10).any fun limit => f.binding = some (c.bindingWithLimit (limit + 1))
  if f.binding ≠ none ∧ f.binding ≠ some c.binding ∧ ¬ legacyMatch then
    .error (.new "provider or class binding changed; restore original configuration for cleanup")
  else if f.bindingVersion ≠ 0 ∧ f.bindingVersion ≠ 2 then
    .error (.new "unsupported fleet binding version")
  else .ok { f with bindingVersion := 2, binding := some c.binding }

end Fleet

/-- Reading a fleet rewrites its binding and nothing else. -/
theorem bind_frame {f bound : Fleet} {c : Config} (binds : f.bind c = .ok bound) :
    bound = { f with bindingVersion := 2, binding := some c.binding } := by
  unfold Fleet.bind at binds
  dsimp only at binds
  repeat' split at binds
  all_goals cases binds
  rfl

/-! ## The budget -/

section Budget

variable {m : Type → Type} [Monad m] (ops : Int64Ops m)

def reservationIn (maxPriceMicros maxLifetimeSeconds : Int) : m Int := do
  let price ← ops.mul maxPriceMicros maxLifetimeSeconds
  let rounded ← ops.add price 3599
  ops.div rounded 3600

/-- The phase of each listed allocation; one not listed has none. -/
def phases (allocs : List Allocation) : GoMap String Phase :=
  allocs.foldl (fun phase a => phase.insert a.id a.phase) ∅

/-- Whether a reservation counts towards what was spent on the day of `now`. -/
def counts (f : Fleet) (allocs : List Allocation) (now : Time) (id : String) : Bool :=
  if (phases allocs).lookup id = some .timedOut then false
  else (f.created.lookup id).any fun created => utcDay now = utcDay created

def spentTodayIn (f : Fleet) (allocs : List Allocation) (now : Time) : m Int :=
  f.reserved.entries.foldlM
    (fun total entry => if counts f allocs now entry.1 then ops.add total entry.2 else pure total) 0

/-- How many more allocations the ceiling affords. -/
def affordableIn (c : Config) (f : Fleet) (allocs : List Allocation) (now : Time) : m Int := do
  let unit ← reservationIn ops c.requirements.maxPriceMicros c.maxLifetimeSeconds
  let spent ← spentTodayIn ops f allocs now
  let remaining ← ops.sub c.budgetDailyMicros spent
  if unit > 0 ∧ remaining > 0 then ops.div remaining unit else pure 0

end Budget

def reservationMicros (maxPriceMicros maxLifetimeSeconds : Int) : Int :=
  Id.run (reservationIn wrapping maxPriceMicros maxLifetimeSeconds)

def spentToday (f : Fleet) (allocs : List Allocation) (now : Time) : Int :=
  Id.run (spentTodayIn wrapping f allocs now)

def affordable (c : Config) (f : Fleet) (allocs : List Allocation) (now : Time) : Int :=
  Id.run (affordableIn wrapping c f allocs now)

end RunnerScout.Operator
