import RunnerScout.Operator.Jobs
import RunnerScout.Operator.Retry

/-! # `Tick`, pruning and `Drained`

One reconciliation cycle: pending admissions become records, every allocation is
stepped on a goroutine of its own, interrupted jobs are retried, and records past
their retention are pruned.  `Drained` decides when nothing is left to clean up.
-/

namespace RunnerScout.Operator

open Interaction Program Lifecycle

def terminalRetention : Duration := 24 * hour

def cooldown : Duration := 5 * minute

section Operator

variable (o : Operator)

/-! ## Pending admissions -/

/-- The loop over the pending admissions, in the order Go happened to choose. -/
def migrate : List String → Fleet → Program Api (Except GoError Fleet)
  | [], f => return .ok f
  | id :: rest, f => do
    match f.pending.lookup id with
    | none => migrate rest f
    | some a =>
      let a := if o.draining then { a with retire := true } else a
      match ← o.store.save a 0 with
      | .ok _ => migrate rest { f with pending := f.pending.erase id }
      | .error e =>
        -- an earlier cycle has recorded it
        if errorIs (some e) .conflict then migrate rest { f with pending := f.pending.erase id }
        else return .error e

/-! ## Cooldowns and interruptions -/

/-- Keep the later end of each pool's cooldown. -/
def extendCooldowns (cooldowns ends : GoMap String Time) : GoMap String Time :=
  ends.entries.foldl
    (fun cooldowns entry =>
      if (cooldowns.lookup entry.1).getD 0 < entry.2 then cooldowns.insert entry.1 entry.2 else cooldowns)
    cooldowns

/-- The ends of the cooldowns an allocation's rejections started. -/
def rejections (a : Allocation) : GoMap String Time :=
  a.rejectedAt.entries.foldl (fun ends entry => ends.insert entry.1 (entry.2 + cooldown)) ∅

def pollAzureInterruptions : Program Api (GoMap String Bool) := do
  if !o.azureInterruptions then return ∅
  else
    match ← ask (S := Api) .pollInterruptions with
    | .error _ => return ∅
    | .ok results =>
      return results.foldl
        (fun m r =>
          if r.err.isSome || r.resourceID = "" then m
          else m.insert r.resourceID ((m.lookup r.resourceID).getD false || r.preempted))
        ∅

/-! ## Stepping -/

/-- The calls of a `Step`: its store is `state.Kubernetes`, its clock `time.Now`. -/
def stepCall (interruptions : GoMap String Bool) : (request : Request) → Program Api (Reply request)
  | .load id => o.store.load id
  | .save a revision => o.store.save a revision
  | .now => ask (S := Api) .now
  | .deregisterRunner id => ask (S := Api) (.deregisterRunner id)
  | .create p a => ask (S := Api) (.provider interruptions (.create p a))
  | .createWithResources p a => ask (S := Api) (.provider interruptions (.createWithResources p a))
  | .observe p a => ask (S := Api) (.provider interruptions (.observe p a))
  | .reconcileCreation p a => ask (S := Api) (.provider interruptions (.reconcileCreation p a))
  | .delete p a => ask (S := Api) (.provider interruptions (.delete p a))

structure StepOutcome where
  err : Option GoError
  cooldowns : GoMap String Time

/-- The goroutine of one allocation. -/
def stepWorker (c : Controller) (interruptions : GoMap String Bool) (id : String) : Program Api StepOutcome := do
  let err ← (c.step id).interpret (o.stepCall interruptions)
  match ← o.store.load id with
  | .error _ => return ⟨err, ∅⟩
  | .ok updated => return ⟨err, rejections updated⟩

/-- Those of the retirement of an allocation: the instant it reads is noted. -/
def examineCall (interruptions : GoMap String Bool) (id : String) : (request : Request) → Program Api (Reply request)
  | .now => do
    let now ← ask (S := Api) .now
    ask (S := Api) (.note (.examined id now))
    return now
  | request => o.stepCall interruptions request

def examine (interruptions : GoMap String Bool) (created : Time) (a : Allocation) : Program Api (Option GoError) :=
  (retireOverdue o.draining (o.config.maxLifetimeSeconds * second) created a).interpret (o.examineCall interruptions a.id)

/-- The loop that starts the goroutines and, once they have all ended, their outcomes.
    Each one runs alongside the rest of the loop. -/
def stepAll (c : Controller) (interruptions : GoMap String Bool) (f : Fleet) :
    List Allocation → Program Api (List StepOutcome × List GoError)
  | [] => return ([], [])
  | a :: rest => do
    match f.created.lookup a.id with
    | none =>
      let (outcomes, failures) ← stepAll c interruptions f rest
      return (outcomes, .new "allocation has no durable lifetime origin" :: failures)
    | some created =>
      match ← o.examine interruptions created a with
      | some e =>
        let (outcomes, failures) ← stepAll c interruptions f rest
        return (outcomes, e :: failures)
      | none =>
        let (outcome, outcomes, failures) ← both (S := Api) .schedule id
          (o.stepWorker c interruptions a.id) (stepAll c interruptions f rest)
        return (outcome :: outcomes, failures)

/-! ## Pruning -/

/-- The loop that marks what may be deleted. -/
def markPruned : List Allocation → Fleet → Program Api (Fleet × List String × List GoError)
  | [], f => return (f, [], [])
  | a :: rest, f => do
    if a.terminalAt = 0 then markPruned rest f
    else
      let now ← ask (S := Api) .now
      if now - a.terminalAt < terminalRetention then markPruned rest f
      else if a.phase ≠ .timedOut ∧ ¬ (a.phase = .deleted ∧ f.isReleased a.id) then markPruned rest f
      else
        match ← ask (S := Api) (.deregisterRunner a.id) with
        | some e =>
          let (f, ids, failures) ← markPruned rest f
          return (f, ids, e :: failures)
        | none =>
          let (f, ids, failures) ← markPruned rest { f with pruned := f.pruned.insert a.id true }
          return (f, a.id :: ids, failures)

def deletePruned : List String → Program Api (List GoError)
  | [] => return []
  | id :: rest => do
    match ← o.store.delete id with
    | none => deletePruned rest
    | some e => return e :: (← deletePruned rest)

def pruneTerminalAllocations (allocs : List Allocation) : Program Api (Option GoError) := do
  if !o.controller.runners then return none
  else
    match ← o.loadFleet with
    | .error e => return some e
    | .ok (cm, f) =>
      let (f, ids, failures) ← markPruned allocs f
      -- the marks are durable before any record goes
      let saved ← if ids.length > 0 then saveFleet cm f else pure none
      match saved with
      | some e => return joinErrors (failures ++ [e])
      | none => return joinErrors (failures ++ (← o.deletePruned ids))

/-! ## The whole cycle -/

structure TickResult where
  err : Option GoError
  cooldowns : GoMap String Time := ∅

/-- The cycle after the pending admissions are recorded. -/
def tickRecorded (f : Fleet) : Program Api TickResult := do
  match ← o.store.list with
  | .error e => return ⟨some e, ∅⟩
  | .ok allocs =>
    let cooldowns := allocs.foldl (fun cooldowns a => extendCooldowns cooldowns (rejections a)) ∅
    -- what was polled lasts for this cycle only
    let interruptions ← o.pollAzureInterruptions
    let (outcomes, failures) ← o.stepAll { o.controller with cooldowns := cooldowns } interruptions f allocs
    let cooldowns := outcomes.foldl (fun cooldowns r => extendCooldowns cooldowns r.cooldowns) cooldowns
    let retryErr ← o.processInterruptionRetries
    let pruneErr ← o.pruneTerminalAllocations allocs
    let failures := failures ++ outcomes.filterMap StepOutcome.err ++ retryErr.toList ++ pruneErr.toList
    return ⟨joinErrors failures, cooldowns⟩

def tick : Program Api TickResult := do
  match ← o.loadFleet with
  | .error e => return ⟨some e, ∅⟩
  | .ok (cm, f) =>
    let order ← ask (S := Api) (.rangeOrder f.pending.keys)
    match ← o.migrate order f with
    | .error e => return ⟨some e, ∅⟩
    | .ok f =>
      match ← saveFleet cm f with
      | some e => return ⟨some e, ∅⟩
      | none => o.tickRecorded f

/-! ## Pausing and draining -/

def pauseAdmissions (paused : Bool) : Operator := { o with paused := paused }

def drain : Operator := { o with draining := true, paused := true }

/-! ## Drained -/

/-- The loop of `Drained` over the records. -/
def drainedRecords (f : Fleet) : List Allocation → Except GoError Bool
  | [] => .ok true
  | a :: rest =>
    if (f.created.lookup a.id).isNone then .error (.new "allocation has no durable lifetime origin")
    else if !a.phase.terminal then .ok false
    else drainedRecords f rest

/-- The decision once fleet and records are read and nothing is pending. -/
def drainedResult (f : Fleet) (allocs : List Allocation) : Bool × Option GoError :=
  match drainedRecords f allocs with
  | .error e => (false, some e)
  | .ok false => (false, none)
  | .ok true => (f.created.keys.all fun id => (allocs.map Allocation.id).contains id || f.isPruned id, none)

def drained : Program Api (Bool × Option GoError) := do
  match ← o.readFleet false with
  | .error e => return (false, some e)
  | .ok (_, f) =>
    if f.pending.keys.length ≠ 0 then return (false, none)
    else
      match ← o.store.list with
      | .error e => return (false, some e)
      | .ok allocs => return drainedResult f allocs

end Operator

end RunnerScout.Operator
