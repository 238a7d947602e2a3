import RunnerScout.Interaction.Program
import RunnerScout.Lifecycle.Allocation

/-! # `Controller.Step`

The allocation state machine as the program of its store, provider, clock and
deregistration calls.  Whether a crash, another writer or the cloud comes in
between two of them is the business of the world the program is run in, not of
the program.
-/

namespace RunnerScout.Lifecycle

open Interaction Program Placement

/-! ## Calls -/

inductive Request where
  | load (id : String)
  | save (a : Allocation) (revision : Revision)
  | now
  | create (provider : String) (a : Allocation)
  | createWithResources (provider : String) (a : Allocation)
  | observe (provider : String) (a : Allocation)
  | reconcileCreation (provider : String) (a : Allocation)
  | delete (provider : String) (a : Allocation)
  | deregisterRunner (id : String)

/-- A Go call that returns a value and an error returns both; the sources read the
    value of a failed create or observation. -/
abbrev Reply : Request → Type
  | .load _ | .save _ _ => Except GoError Allocation
  | .now => Time
  | .create _ _ => String × Option GoError
  | .createWithResources _ _ => Creation × Option GoError
  | .observe _ _ | .reconcileCreation _ _ => Observation × Option GoError
  | .delete _ _ | .deregisterRunner _ => Option GoError

abbrev Calls : Signature := ⟨Request, Reply⟩

/-- Which of the optional interfaces a configured provider implements. -/
structure Provider where
  resourceCreator : Bool
  creationReconciler : Bool
deriving DecidableEq, Repr

/-- `runners` says whether a deregistrar is configured at all. -/
structure Controller where
  cooldowns : GoMap String Time := ∅
  providers : GoMap String Provider := ∅
  runners : Bool := true

def save (a : Allocation) : Program Calls (Option GoError) := do
  match ← ask (S := Calls) (.save a a.revision) with
  | .ok _ => return none
  | .error e => return some e

/-- Save, and report `e` only once the save succeeded. -/
def saveThen (a : Allocation) (e : GoError) : Program Calls (Option GoError) := do
  match ← save a with
  | some saveErr => return some saveErr
  | none => return some e

def rememberResources (a : Allocation) (resources : List ResourceReference) :
    Program Calls (Except GoError Allocation) := do
  match mergeResources a.resources resources with
  | .error e => return .error e
  | .ok (merged, changed) =>
    if !changed then return .ok a
    else
      let next := { a with resources := merged }
      ask (S := Calls) (.save next a.revision)

/-! ## What each transition writes -/

namespace Allocation

def timeOut (a : Allocation) (now : Time) : Allocation :=
  { a with phase := .timedOut, condition := "LocalProvisioningTimeout", terminalAt := now }

def commit (a : Allocation) (o : Offering) : Allocation :=
  { a with offering := o, attempts := a.attempts + 1, phase := .creating, condition := "CreateCommitmentUnknown" }

def preparationFailed (a : Allocation) (e : Option GoError) : Allocation :=
  { a with phase := .pending, condition := "CreatePreparationFailed: " ++ errorText e }

def capacityRejected (a : Allocation) (pool : String) (now : Time) : Allocation :=
  { a with
    phase := .pending
    outcomes := a.outcomes.insert pool .capacityRejected
    rejectedAt := a.rejectedAt.insert pool now
    condition := "CapacityRejected" }

/-- Fields a receipt carries are taken over only when it carries them. -/
def receive (a : Allocation) (creation : Creation) : Allocation :=
  { a with
    resourceID := if creation.resourceID ≠ "" then creation.resourceID else a.resourceID
    wireGuardPublicKey :=
      if creation.wireGuardPublicKey.length > 0 then creation.wireGuardPublicKey else a.wireGuardPublicKey
    wireGuardPollTokenHash :=
      if creation.wireGuardPollTokenHash.length > 0 then creation.wireGuardPollTokenHash else a.wireGuardPollTokenHash
    wireGuardEndpoint :=
      if creation.wireGuardEndpoint ≠ "" then creation.wireGuardEndpoint else a.wireGuardEndpoint }

/-- A create whose outcome is unknown keeps its phase and everything it named. -/
def uncertain (a : Allocation) (creation : Creation) (resources : List ResourceReference)
    (e : Option GoError) : Allocation :=
  { a.receive creation with
    resources := resources
    condition := if e.isSome then "CreateCommitmentUnknown: " ++ errorText e else a.condition }

def vmCreated (a : Allocation) (creation : Creation) (resources : List ResourceReference) : Allocation :=
  { a.receive creation with resources := resources, phase := .running, condition := "VMCreated" }

def release (a : Allocation) (now : Time) (condition : String) : Allocation :=
  { a with phase := .deleted, condition := condition, terminalAt := now }

def cleanUp (a : Allocation) (condition : String) : Allocation :=
  { a with phase := .deleting, condition := condition }

/-- A committed creation whose resource was found. -/
def found (a : Allocation) (resourceID : String) (retire : Bool) : Allocation :=
  let a := { a with resourceID := resourceID, phase := .running }
  if retire then a.cleanUp "LocalProvisioningTimeoutCleanupPending" else a

end Allocation

/-! ## The state machine -/

namespace Controller

def deregister (c : Controller) (id : String) : Program Calls (Option GoError) :=
  if !c.runners then return none else ask (S := Calls) (.deregisterRunner id)

/-- The outcomes `Choose` is given: pools still cooling down count as such unless the
    allocation has an outcome of its own for them. -/
def outcomes (c : Controller) (now : Time) (a : Allocation) : GoMap String Outcome :=
  c.cooldowns.entries.foldl
    (fun outcomes entry =>
      if now < entry.2 ∧ outcomes.lookup entry.1 = none then outcomes.insert entry.1 .coolingDown
      else outcomes)
    a.outcomes

/-- The create call of whichever interface the provider implements. -/
def createCall (p : Provider) (name : String) (a : Allocation) :
    Program Calls (Creation × Option GoError) := do
  if p.resourceCreator then
    ask (S := Calls) (.createWithResources name a)
  else
    let (resourceID, e) ← ask (S := Calls) (.create name a)
    return ({ resourceID := resourceID }, e)

/-- What happens to the committed record once the create call has returned. -/
def afterCreate (now : Time) (o : Offering) (a : Allocation) (creation : Creation) (e : Option GoError) :
    Program Calls (Option GoError) :=
  if errorIs e .noEffect && creation.empty then
    save (a.preparationFailed e)
  else if errorIs e .capacity && creation.empty then
    save (a.capacityRejected o.id now)
  else
    match mergeResources a.resources creation.resources with
    | .error referenceError => saveThen (a.receive creation) referenceError
    | .ok (resources, _) =>
      if e.isSome || creation.resourceID = "" then
        let a := a.uncertain creation resources e
        let unknown := GoError.new ("create commitment unknown for " ++ a.id)
        if !creation.empty || a.condition ≠ "CreateCommitmentUnknown" then saveThen a unknown
        else return some unknown
      else
        save (a.vmCreated creation resources)

def stepPending (c : Controller) (now : Time) (expired : Bool) (a : Allocation) :
    Program Calls (Option GoError) := do
  if a.retainsResources then
    return some (.new "pending allocation retains cloud resources")
  else if a.retire || expired || a.attempts ≥ a.maxAttempts then
    match ← c.deregister a.id with
    | some e => return some e
    | none => save (a.timeOut now)
  else
    match choose now a.requirements a.catalog (c.outcomes now a) with
    | .error e => save { a with condition := e.text }
    | .ok o =>
      match c.providers.lookup o.provider with
      | none => return some (.new "provider configuration unavailable")
      | some p =>
        -- the commitment is durable before anything is created
        match ← ask (S := Calls) (.save (a.commit o) a.revision) with
        | .error e => return some e
        | .ok a =>
          let (creation, e) ← createCall p o.provider a
          afterCreate now o a creation e

/-- Record why an observation decided nothing, then report it. -/
def undecided (a : Allocation) (e : Option GoError) (condition cause report : String) :
    Program Calls (Option GoError) :=
  saveThen { a with condition := condition ++ if e.isSome then errorText e else cause } (.new report)

/-- Release a record whose resource is confirmed absent, unless its runner
    registration cannot be cleared. -/
def confirmAbsent (c : Controller) (now : Time) (a : Allocation) (condition : String) :
    Program Calls (Option GoError) := do
  match ← c.deregister a.id with
  | some e => return some e
  | none => save (a.release now condition)

/-- The observation of a committed creation, with the record it was made of.  A
    reconciler is fenced by a save of its own first. -/
def reconcile (p : Provider) (a : Allocation) :
    Program Calls (Except GoError (Allocation × Observation × Option GoError)) := do
  let name := a.offering.provider
  if p.creationReconciler then
    match ← ask (S := Calls) (.save a a.revision) with
    | .error e => return .error e
    | .ok a =>
      let (ob, e) ← ask (S := Calls) (.reconcileCreation name a)
      return .ok (a, ob, e)
  else
    let (ob, e) ← ask (S := Calls) (.observe name a)
    return .ok (a, ob, e)

def stepCreating (c : Controller) (p : Provider) (now : Time) (expired : Bool) (a : Allocation) :
    Program Calls (Option GoError) := do
  match ← reconcile p a with
  | .error e => return some e
  | .ok (a, ob, e) =>
    -- proven identities are persisted before the uncertainty is reported
    match ← rememberResources a ob.resources with
    | .error e => return some e
    | .ok a =>
      if e.isSome || !ob.known then
        undecided a e "CreateReconciliationUnknown: " "provider returned unknown create reconciliation"
          "create reconciliation unknown"
      else if !ob.present then
        c.confirmAbsent now a "CreateConfirmedAbsent"
      else
        save (a.found ob.resourceID (a.retire || (expired && !a.ready)))

def stepRunning (c : Controller) (now : Time) (expired : Bool) (a : Allocation) :
    Program Calls (Option GoError) := do
  if a.retire || (expired && !a.ready) then
    save (a.cleanUp "CleanupPending")
  else
    let (ob, e) ← ask (S := Calls) (.observe a.offering.provider a)
    if e.isSome || !ob.known then
      undecided a e "ResourceObservationUnknown: " "provider returned unknown resource observation"
        "resource observation unknown"
    else
      match ← rememberResources a ob.resources with
      | .error e => return some e
      | .ok a =>
        if !ob.present then
          c.confirmAbsent now a
            (if ob.interrupted then "ResourceAbsentConfirmedInterruption" else "ResourceAbsentInterruptionUnproven")
        else return none

def stepDeleting (c : Controller) (now : Time) (a : Allocation) : Program Calls (Option GoError) := do
  let (ob, e) ← ask (S := Calls) (.observe a.offering.provider a)
  if e.isSome || !ob.known then
    undecided a e "CleanupObservationUnknown: " "provider returned unknown cleanup observation"
      "cleanup observation unknown"
  else
    match ← rememberResources a ob.resources with
    | .error e => return some e
    | .ok a =>
      if !ob.present then c.confirmAbsent now a "CleanupConfirmed"
      else
        match ← ask (S := Calls) (.delete a.offering.provider a) with
        | some e =>
          saveThen { a with condition := "CleanupUnconfirmed: " ++ e.text }
            (.new "delete not confirmed; cleanup retained")
        | none => return none

/-- The checks of a loaded record, then the branch of its phase. -/
def stepLoaded (c : Controller) (now : Time) (a : Allocation) : Program Calls (Option GoError) :=
  let expired := !decide (now < a.deadline)
  if a.id = "" ∨ a.deadline = 0 ∨ a.maxAttempts < 1 ∨ a.maxAttempts > 10 then
    return some (.new "invalid persisted allocation")
  else if a.phase.terminal then return none
  else if a.phase = .pending then c.stepPending now expired a
  else
    match c.providers.lookup a.offering.provider with
    | none => return some (.new "provider configuration unavailable; cleanup retained")
    | some p =>
      match a.phase with
      | .creating => c.stepCreating p now expired a
      | .running => c.stepRunning now expired a
      | .deleting => c.stepDeleting now a
      | _ => return some (.new "unknown allocation phase")

def step (c : Controller) (id : String) : Program Calls (Option GoError) := do
  match ← ask (S := Calls) (.load id) with
  | .error e => return some e
  | .ok a =>
    let now ← ask (S := Calls) .now
    c.stepLoaded now a

/-! ## Cooldowns -/

/-- Cooldowns show only where the allocation has no outcome of its own. -/
theorem outcomes_lookup (c : Controller) (now : Time) (a : Allocation) (pool : String) :
    (c.outcomes now a).lookup pool = a.outcomes.lookup pool ∨
      (a.outcomes.lookup pool = none ∧ (c.outcomes now a).lookup pool = some .coolingDown) := by
  unfold Controller.outcomes
  refine List.foldlRecOn (motive := fun outcomes : GoMap String Outcome =>
    outcomes.lookup pool = a.outcomes.lookup pool ∨
      (a.outcomes.lookup pool = none ∧ outcomes.lookup pool = some .coolingDown)) _ _ (.inl rfl) ?_
  intro outcomes overlaid entry _
  split
  · rename_i cools
    by_cases same : pool = entry.1
    · subst same
      simp only [cools.2, reduceCtorEq, and_false, or_false] at overlaid
      exact .inr ⟨overlaid.symm, AList.lookup_insert _⟩
    · rw [AList.lookup_insert_ne same]
      exact overlaid
  · exact overlaid

theorem outcomes_none {c : Controller} {now : Time} {a : Allocation} {pool : String}
    (untried : (c.outcomes now a).lookup pool = none) : a.outcomes.lookup pool = none := by
  obtain same | ⟨_, cooling⟩ := outcomes_lookup c now a pool
  · exact same ▸ untried
  · rw [untried] at cooling
    cases cooling

theorem outcomes_rejected {c : Controller} {now : Time} {a : Allocation} {pool : String}
    (rejected : (c.outcomes now a).lookup pool = some .capacityRejected) :
    a.outcomes.lookup pool = some .capacityRejected := by
  obtain same | ⟨_, cooling⟩ := outcomes_lookup c now a pool
  · exact same ▸ rejected
  · rw [rejected] at cooling
    cases cooling

end Controller

end RunnerScout.Lifecycle
