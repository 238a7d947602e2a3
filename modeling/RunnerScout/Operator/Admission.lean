import RunnerScout.State.Kubernetes

/-! # Admitting allocations

The fleet ConfigMap, and `HandleDesiredRunnerCount`: how demand becomes pending
allocations, under the runner limit, the daily budget and the catalog.
-/

namespace RunnerScout.Operator

open Interaction Program Lifecycle Placement

/-! ## The fleet ConfigMap -/

/-- The name of the fleet ConfigMap of a scale set. -/
def fleetName (name : String) : String := name ++ "-fleet"

def emptyFleetMap (name : String) : ConfigMap where
  name := fleetName name
  labels := (∅ : GoMap String String).insert State.ownerLabel name
  data := (∅ : GoMap String Document).insert "fleet" (.fleet {})

section Operator

variable (o : Operator)

def store : State.Kubernetes := ⟨o.config.name⟩

/-- The ConfigMap `readFleet` decodes; a missing one is created on request. -/
def fleetMap (create : Bool) : Program Api (Except GoError ConfigMap) := do
  match ← ask (S := Api) (.getMap (fleetName o.config.name)) with
  | .ok cm => return .ok cm
  | .error e =>
    if errorIs (some e) .notFound then
      if create then ask (S := Api) (.createMap (emptyFleetMap o.config.name))
      else return .ok (emptyFleetMap o.config.name)
    else return .error e

def decodeFleet (cm : ConfigMap) : Except GoError Fleet :=
  if (cm.labels.lookup State.ownerLabel).getD "" ≠ o.config.name then .error (.new "fleet ownership mismatch")
  else
    match cm.data.lookup "fleet" with
    | some (.fleet f) => f.bind o.config
    | _ => .error (.new "unexpected end of JSON input")

def readFleet (create : Bool) : Program Api (Except GoError (ConfigMap × Fleet)) := do
  match ← o.fleetMap create with
  | .error e => return .error e
  | .ok cm =>
    match o.decodeFleet cm with
    | .error e => return .error e
    | .ok f => return .ok (cm, f)

def loadFleet : Program Api (Except GoError (ConfigMap × Fleet)) := o.readFleet true

end Operator

/-- The ConfigMap a fleet is saved as, from the one it was read from. -/
def withFleet (cm : ConfigMap) (f : Fleet) : ConfigMap := { cm with data := cm.data.insert "fleet" (.fleet f) }

def saveFleet (cm : ConfigMap) (f : Fleet) : Program Api (Option GoError) := do
  match ← ask (S := Api) (.updateMap (withFleet cm f)) with
  | .error e => return some e
  | .ok _ => return none

/-! ## Counting -/

/-- Deleted and timed-out allocations give their slot back, once. -/
def releaseTerminal (f : Fleet) (a : Allocation) : Fleet :=
  if a.phase.terminal && !f.isReleased a.id then
    { f with
      admission := if f.admission.admitted > 0
        then { f.admission with admitted := f.admission.admitted - 1 } else f.admission
      released := f.released.insert a.id true }
  else f

def release (allocs : List Allocation) (f : Fleet) : Fleet := allocs.foldl releaseTerminal f

/-- Pending admissions count before their records exist. -/
def activeCount (allocs : List Allocation) (f : Fleet) : Int :=
  allocs.countP (fun a => !a.phase.terminal)
    + f.pending.keys.countP (fun id => !(allocs.map Allocation.id).contains id)

def Fleet.refund (f : Fleet) (n : Int) : Fleet :=
  { f with admission := { f.admission with admitted := f.admission.admitted - n } }

/-! ## Prices -/

/-- The price refresh of one provider: `query` is none for an offering it leaves alone.
    A failed observation only makes its own offering stale. -/
def refreshOfferings (query : Offering → Option PriceQuery) : List Offering → Program Api (List Offering)
  | [] => return []
  | offering :: rest => do
    match query offering with
    | none => return offering :: (← refreshOfferings query rest)
    | some asked =>
      match ← ask (S := Api) (.observePrice asked) with
      | .error _ => return { offering with observedAt := 0 } :: (← refreshOfferings query rest)
      | .ok quote =>
        return { offering with
          priceMicros := quote.priceMicros
          currency := quote.currency
          observedAt := quote.observedAt } :: (← refreshOfferings query rest)

def refreshPrices (configured : Bool) (query : Offering → Option PriceQuery) (catalog : Catalog) :
    Program Api Catalog := do
  if !configured then return catalog
  else return { catalog with offerings := ← refreshOfferings query catalog.offerings }

section Operator

variable (o : Operator)

def refreshAWSPrices : Catalog → Program Api Catalog :=
  refreshPrices o.awsPrices fun x =>
    if x.provider ≠ "aws" || !x.spot then none else some (.aws x.region x.zone x.machine)

def refreshAzurePrices : Catalog → Program Api Catalog :=
  refreshPrices o.azurePrices fun x =>
    if x.provider ≠ "azure" || !x.spot then none else some (.azure x.region x.zone x.machine)

/-- Unlike the other two, pinned SKUs carry no restriction to spot offerings. -/
def refreshGCPPrices : Catalog → Program Api Catalog :=
  refreshPrices o.gcpPrices fun x =>
    if x.provider ≠ "gcp" then none
    else x.gcpSkuRefs.map fun refs => .gcp refs.coreSkuID refs.ramSkuID x.cpu x.memoryMiB

def catalog : Program Api (Except GoError Catalog) := do
  if o.config.catalogPath = "" then return .ok o.config.catalog
  else ask (S := Api) (.readCatalog o.config.catalogPath)

/-! ## One batch -/

/-- The addresses already given out under the operator's network profile. -/
def overlayTaken (allocs : List Allocation) (f : Fleet) : List String :=
  let shares (a : Allocation) : Bool :=
    a.networkProfile = o.config.networkProfile && a.wireGuardOverlayAddress ≠ ""
  ((allocs.filter fun a => shares a && !a.phase.terminal)
    ++ (f.pending.entries.map fun entry => entry.2).filter shares).map Allocation.wireGuardOverlayAddress

def overlayAddresses : Nat → List String → Except GoError (List String)
  | 0, _ => .ok []
  | n + 1, taken =>
    match o.nextOverlayAddress o.config.networkOverlayCIDRs taken with
    | .error e => .error e
    | .ok address =>
      match overlayAddresses n (address :: taken) with
      | .error e => .error e
      | .ok rest => .ok (address :: rest)

def newAllocation (id : String) (now : Time) (catalog : Catalog) (address : String) : Allocation where
  id := id
  phase := .pending
  deadline := now + o.config.provisioningSeconds * second
  maxAttempts := 3
  catalog := catalog
  requirements := o.config.requirements
  networkProfile := o.config.networkProfile
  wireGuardOverlayAddress := address

/-- One admission: its stamp, its reservation, and its entry among the pending. -/
def grant (f : Fleet) (id : String) (now : Time) (catalog : Catalog) (address : String) : Fleet :=
  { f with
    created := f.created.insert id now
    reserved := if o.config.budgetDailyMicros > 0
      then f.reserved.insert id
        (reservationMicros o.config.requirements.maxPriceMicros o.config.maxLifetimeSeconds)
      else f.reserved
    pending := f.pending.insert id (o.newAllocation id now catalog address) }

def stamp (catalog : Catalog) : Nat → List String → Fleet → Program Api Fleet
  | 0, _, f => return f
  | n + 1, addresses, f => do
    let uuid ← ask (S := Api) .newUUID
    let now ← ask (S := Api) .now
    stamp catalog n addresses.tail (o.grant f ("rs-" ++ uuid) now catalog (addresses.headD ""))

/-- How many of `n` new slots the budget leaves. -/
def withinBudget (f : Fleet) (allocs : List Allocation) (n : Int) : Program Api Int := do
  if n > 0 ∧ o.config.budgetDailyMicros > 0 then
    let now ← ask (S := Api) .now
    let affordable := affordable o.config f allocs now
    return if affordable < n then affordable else n
  else return n

/-- Stamp `n` allocations from an admissible catalog. -/
def stampBatch (catalog : Catalog) (f : Fleet) (allocs : List Allocation) (n : Int) :
    Program Api (Except String Fleet) := do
  let addresses :=
    if n > 0 ∧ o.config.networkProfile ≠ "" then o.overlayAddresses n.toNat (o.overlayTaken allocs f) else .ok []
  match addresses with
  | .error _ => return .error "OverlayAddressPoolExhausted"
  | .ok addresses => return .ok (← o.stamp catalog n.toNat addresses { f with condition := "DemandObserved" })

/-- The fleet with its new allocations, or why the whole batch is refused. -/
def batch (f : Fleet) (allocs : List Allocation) (n : Int) : Program Api (Except String Fleet) := do
  match ← o.catalog with
  | .error _ =>
    -- without new slots nothing reads the catalog any more
    if n > 0 then return .error "CatalogUnavailable" else o.stampBatch {} f allocs n
  | .ok catalog =>
    let catalog ← o.refreshAWSPrices catalog
    let catalog ← o.refreshAzurePrices catalog
    let catalog ← o.refreshGCPPrices catalog
    if n > 0 then
      let now ← ask (S := Api) .now
      match choose now o.config.requirements catalog ∅ with
      | .error _ => return .error "CatalogNotAdmissible"
      | .ok _ => o.stampBatch catalog f allocs n
    else o.stampBatch catalog f allocs n

/-- `HandleDesiredRunnerCount` once the fleet and the allocations are read and the
    terminal ones released. -/
def desire (count : Int) (cm : ConfigMap) (f : Fleet) (allocs : List Allocation) :
    Program Api (Int × Option GoError) := do
  let active := activeCount allocs f
  if o.paused || o.draining then
    let condition := if o.draining then "ScaleSetDeleting" else "AdmissionsSuspended"
    return (active, ← saveFleet cm { f with condition := condition })
  else
    match f.admission.reconcile count active o.config.maxRunners (active = 0) with
    | .error e => return (active, some e)
    | .ok (n, admission) =>
      let f := { f with admission := admission }
      let left ← o.withinBudget f allocs n
      let f := f.refund (n - left)
      if n > 0 ∧ left = 0 then
        return (active, ← saveFleet cm { f with condition := "BudgetExhausted" })
      else if left > 0 ∧ f.created.keys.length + left > 1000 then
        return (active, some (.new "retained allocation limit reached; operator maintenance required"))
      else
        -- all or nothing: a refused batch gives its slots back
        match ← o.batch f allocs left with
        | .error reason => return (active, ← saveFleet cm { f.refund left with condition := reason })
        | .ok f =>
          match ← saveFleet cm f with
          | some e => return (active, some e)
          | none => return (active + left, none)

def handleDesiredRunnerCount (count : Int) : Program Api (Int × Option GoError) := do
  match ← o.loadFleet with
  | .error e => return (0, some e)
  | .ok (cm, f) =>
    match ← o.store.list with
    | .error e => return (0, some e)
    | .ok allocs => o.desire count cm (release allocs f) allocs

end Operator

end RunnerScout.Operator
