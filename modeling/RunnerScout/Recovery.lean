import RunnerScout.Golang

/-! # The guard of an opt-in retry -/

namespace RunnerScout.Recovery

structure Policy where
  enabled : Bool := false
  maxRetries : Int := 0
  acknowledgeRepeatedEffects : Bool := false
deriving DecidableEq, Repr

structure RESTJob where
  id : Int := 0
  runID : Int := 0
  attempt : Int := 0
  runnerName : String := ""
  status : String := ""
  conclusion : String := ""
deriving DecidableEq, Repr

structure Evidence where
  scaleSetJobID : String
  runnerName : String
  runID : Int
  attempt : Int
  providerInterrupted : Bool
  jobs : List RESTJob
  retriesUsed : Int
  requestPending : Bool

def Evidence.names (e : Evidence) (j : RESTJob) : Bool :=
  j.runnerName = e.runnerName && j.runID = e.runID && j.attempt = e.attempt

/-- A job that ended in failure. -/
def RESTJob.failed (j : RESTJob) : Bool := j.status = "completed" && j.conclusion = "failure"

def eligible (p : Policy) (e : Evidence) : Except GoError RESTJob :=
  if !p.enabled then .error (.new "spot retries disabled")
  else if !p.acknowledgeRepeatedEffects ∨ p.maxRetries < 1 ∨ p.maxRetries > 3 then
    .error (.new "retry policy requires acknowledgment and a 1..3 limit")
  else if e.retriesUsed < 0 ∨ e.retriesUsed ≥ p.maxRetries ∨ e.requestPending then
    .error (.new "retry budget exhausted or commitment unknown")
  else if !e.providerInterrupted ∨ e.runnerName = "" ∨ e.runID ≤ 0 ∨ e.attempt < 1 then
    .error (.new "interruption or identity evidence missing")
  else
    match e.jobs.filter e.names with
    | [j] =>
      if j.id ≤ 0 ∨ !j.failed then .error (.new "job is not a terminal failure") else .ok j
    | _ => .error (.new "REST identity is not unique")

/-- What an admitted retry may count on. -/
theorem eligible_spec {p : Policy} {e : Evidence} {j : RESTJob} (admitted : eligible p e = .ok j) :
    0 ≤ e.retriesUsed ∧ e.retriesUsed < p.maxRetries ∧ e.requestPending = false ∧ j ∈ e.jobs ∧ j.failed = true := by
  unfold eligible at admitted
  split at admitted
  · cases admitted
  split at admitted
  · cases admitted
  split at admitted
  · cases admitted
  rename_i within
  split at admitted
  · cases admitted
  split at admitted
  · rename_i single matching
    split at admitted
    · cases admitted
    rename_i terminal
    cases admitted
    have member : j ∈ e.jobs.filter e.names := by rw [matching]; exact List.mem_cons_self
    simp only [not_or, Bool.not_eq_true] at within terminal
    exact ⟨by omega, by omega, within.2.2, (List.mem_filter.mp member).1, by simpa using terminal.2⟩
  · cases admitted

end RunnerScout.Recovery
