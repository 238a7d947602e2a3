import RunnerScout.Operator.Admission

/-! # Reruns after confirmed interruptions

One pass over the interrupted allocations: resolve what earlier requests left
unresolved, request bounded reruns, and save the fleet once at the end.
-/

namespace RunnerScout.Operator

open Interaction Program Lifecycle Recovery

def rerunReconciliationPolls : Int := 3

/-- Classify one unresolved request by GitHub's record of the next attempt. -/
def reconcilePendingRerun (owner repo : String) (runID : Int) (pr : PendingRerun) :
    Program Api (RerunOutcome × PendingRerun) := do
  match ← ask (S := Api) (.attemptJobs owner repo runID (pr.attempt + 1)) with
  | .ok nextJobs =>
    -- no jobs recorded yet tells nothing either way
    if nextJobs.length > 0 then return (.confirmedHappened, pr) else return (.stillAmbiguous, pr)
  | .error nextErr =>
    if !errorIs (some nextErr) .attemptNotFound then return (.stillAmbiguous, pr)
    else
      match ← ask (S := Api) (.attemptJobs owner repo runID pr.attempt) with
      | .error _ => return (.stillAmbiguous, pr)
      | .ok originalJobs =>
        if originalJobs.any fun j => j.id = pr.jobID && j.failed then
          let pr := { pr with notFoundPolls := pr.notFoundPolls + 1 }
          if pr.notFoundPolls ≥ rerunReconciliationPolls then return (.confirmedDidNotHappen, pr)
          else return (.stillAmbiguous, pr)
        else return (.stillAmbiguous, { pr with notFoundPolls := 0 })

namespace Fleet

/-- The request of a run is counted as one that happened. -/
def settleRerun (f : Fleet) (run attempt : Int) : Fleet :=
  { f with
    retriesUsedByRun := f.retriesUsedByRun.insert run attempt
    pendingReruns := f.pendingReruns.erase run }

def clearRerun (f : Fleet) (run : Int) : Fleet := { f with pendingReruns := f.pendingReruns.erase run }

def parkRerun (f : Fleet) (run : Int) (pr : PendingRerun) : Fleet :=
  { f with pendingReruns := f.pendingReruns.insert run pr }

def countRerun (f : Fleet) (run attempt : Int) : Fleet :=
  { f with retriesUsedByRun := f.retriesUsedByRun.insert run attempt }

end Fleet

/-- An interruption whose evaluation is not complete. -/
def interrupted (a : Allocation) : Bool :=
  a.phase = .deleted && a.condition = "ResourceAbsentConfirmedInterruption" && !a.retryProcessed && a.runID ≠ 0

section Operator

variable (o : Operator)

/-- A conflict is left to the next pass. -/
def saveProcessed (a : Allocation) : Program Api (List GoError) := do
  match ← o.store.save a a.revision with
  | .ok _ => return []
  | .error e => if errorIs (some e) .conflict then return [] else return [e]

def evidence (a : Allocation) (f : Fleet) (jobs : List RESTJob) : Evidence where
  scaleSetJobID := a.scaleSetJobID
  runnerName := a.id
  runID := a.runID
  attempt := f.retriesUsed a.runID + 1
  providerInterrupted := true
  jobs := jobs
  retriesUsed := f.retriesUsed a.runID
  requestPending := (f.pendingReruns.lookup a.runID).isSome

/-- Request a rerun if the policy admits it, and record what became of the request. -/
def requestRerun (a : Allocation) (f : Fleet) (jobs : List RESTJob) : Program Api Fleet := do
  let attempt := f.retriesUsed a.runID + 1
  match eligible o.config.retry (evidence a f jobs) with
  | .error _ => return f
  | .ok j =>
    ask (S := Api) (.note (.requesting a.id a.runID attempt))
    match ← ask (S := Api) (.rerunFailedJobs a.owner a.repo a.runID) with
    | none => return f.countRerun a.runID attempt
    | some rerunErr =>
      if errorIs (some rerunErr) .rerunRejected then return f
      else return f.parkRerun a.runID { attempt := attempt, jobID := j.id }

/-- Evaluate one interruption whose earlier request, if any, has been looked at. -/
def evaluateRetry (a : Allocation) (f : Fleet) : Program Api (Fleet × List GoError) := do
  let attempt := f.retriesUsed a.runID + 1
  let f ← match ← ask (S := Api) (.attemptJobs a.owner a.repo a.runID attempt) with
    | .error _ => pure f
    | .ok jobs => o.requestRerun a f jobs
  -- an unresolved request keeps the record for the next pass
  let a := if (f.pendingReruns.lookup a.runID).isSome then a else { a with retryProcessed := true }
  return (f, ← o.saveProcessed a)

/-- One turn of the loop. -/
def processRetry (a : Allocation) (f : Fleet) : Program Api (Fleet × List GoError) := do
  match f.pendingReruns.lookup a.runID with
  | none => o.evaluateRetry a f
  | some pr =>
    let (outcome, resolved) ← reconcilePendingRerun a.owner a.repo a.runID pr
    ask (S := Api) (.note (.classified a.runID pr.attempt outcome))
    match outcome with
    | .confirmedHappened =>
      return (f.settleRerun a.runID resolved.attempt, ← o.saveProcessed { a with retryProcessed := true })
    | .confirmedDidNotHappen => o.evaluateRetry a (f.clearRerun a.runID)
    -- `Eligible` refuses while the request is pending
    | .stillAmbiguous => o.evaluateRetry a (f.parkRerun a.runID resolved)

def processRetries : List Allocation → Fleet → Program Api (Fleet × List GoError)
  | [], f => return (f, [])
  | a :: rest, f => do
    let (f, failures) ← o.processRetry a f
    let (f, more) ← processRetries rest f
    return (f, failures ++ more)

def processInterruptionRetries : Program Api (Option GoError) := do
  if !o.gitHubJobs || !o.config.retry.enabled then return none
  else
    ask (S := Api) (.note .started)
    match ← o.store.list with
    | .error e => return some e
    | .ok allocs =>
      let pending := allocs.filter interrupted
      if pending.length = 0 then return none
      else
        match ← o.loadFleet with
        | .error e => return some e
        | .ok (cm, f) =>
          let (f, failures) ← o.processRetries pending f
          -- until here the maps were kept in memory only, and the requests are out
          match ← saveFleet cm f with
          | some e => return joinErrors (failures ++ [e])
          | none => return joinErrors failures

end Operator

end RunnerScout.Operator
