import RunnerScout.Interaction.Parallel
import RunnerScout.Lifecycle.Controller
import RunnerScout.Operator.Fleet

/-! # The calls of an operator process

Every call the operator makes to its surroundings, one request each: the
Kubernetes API, the clock, the price and queue services, GitHub, and the providers
a `Step` talks to.  `rangeOrder` and `schedule` are the two choices Go itself makes
at run time, the order of a `range` over a map and the interleaving of goroutines.
-/

namespace RunnerScout.Operator

open Interaction Lifecycle Placement Recovery

/-- One value of a ConfigMap: a text, given as what it decodes to. -/
inductive Document where
  | allocation (a : Allocation)
  | fleet (f : Fleet)
  | text (content : String)

structure ConfigMap where
  name : String
  resourceVersion : Revision := 0
  labels : GoMap String String := ∅
  data : GoMap String Document := ∅

inductive PriceQuery where
  | aws (region zone machine : String)
  | azure (region zone machine : String)
  | gcp (coreSkuID ramSkuID : String) (cpu memoryMiB : Int)
deriving DecidableEq, Repr

structure Quote where
  priceMicros : Int
  currency : String
  observedAt : Time
deriving DecidableEq, Repr

/-- One classified message of the interruption queue. -/
structure Interruption where
  resourceID : String := ""
  preempted : Bool := false
  err : Option GoError := none
deriving DecidableEq, Repr

/-- What reconciliation makes of a rerun request whose outcome is unknown. -/
inductive RerunOutcome where
  | stillAmbiguous
  | confirmedHappened
  | confirmedDidNotHappen
deriving DecidableEq, Repr

/-- Moments that the results refer to and that no call marks: a cycle has read the
    instant by which it examines an allocation; a retry pass starts, it decides about an
    unresolved request of a run, it is about to request a rerun on behalf of an allocation. -/
inductive Moment where
  | examined (id : String) (now : Time)
  | started
  | classified (run attempt : Int) (outcome : RerunOutcome)
  | requesting (id : String) (run attempt : Int)
deriving DecidableEq, Repr

inductive ApiRequest where
  | getMap (name : String)
  | createMap (cm : ConfigMap)
  | updateMap (cm : ConfigMap)
  | deleteMap (name : String)
  | listMaps (owner kind : String)
  | now
  | newUUID
  | readCatalog (path : String)
  | observePrice (query : PriceQuery)
  | pollInterruptions
  /-- A call of `Step` to a provider whose adapter holds this Tick's interruptions. -/
  | provider (interrupted : GoMap String Bool) (request : Request)
  | deregisterRunner (id : String)
  | attemptJobs (owner repo : String) (runID attempt : Int)
  | rerunFailedJobs (owner repo : String) (runID : Int)
  /-- Not a call: an entry in the history of the process. -/
  | note (moment : Moment)
  | rangeOrder (keys : List String)
  | schedule

abbrev ApiReply : ApiRequest → Type
  | .getMap _ | .createMap _ | .updateMap _ => Except GoError ConfigMap
  | .deleteMap _ | .deregisterRunner _ | .rerunFailedJobs _ _ _ => Option GoError
  | .listMaps _ _ => Except GoError (List ConfigMap)
  | .now => Time
  | .newUUID => String
  | .readCatalog _ => Except GoError Catalog
  | .observePrice _ => Except GoError Quote
  | .pollInterruptions => Except GoError (List Interruption)
  | .provider _ request => Reply request
  | .attemptJobs _ _ _ _ => Except GoError (List RESTJob)
  | .note _ => Unit
  | .rangeOrder _ => List String
  | .schedule => Bool

abbrev Api : Signature := ⟨ApiRequest, ApiReply⟩

end RunnerScout.Operator

namespace RunnerScout

/-- A process: its configuration, the clients it was given, and its switches. -/
structure Operator where
  config : Operator.Config
  controller : Lifecycle.Controller := {}
  gitHubJobs : Bool := false
  awsPrices : Bool := false
  azurePrices : Bool := false
  gcpPrices : Bool := false
  azureInterruptions : Bool := false
  paused : Bool := false
  draining : Bool := false
  /-- `wireguard.NextOverlayAddress`, from the overlay ranges and the addresses taken. -/
  nextOverlayAddress : List String → List String → Except GoError String :=
    fun _ _ => .error (.new "wireguard: overlay address pool exhausted")

end RunnerScout
