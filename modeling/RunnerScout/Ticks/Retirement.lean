import RunnerScout.Capacity.Slots
import RunnerScout.Ticks.Cycle

/-! # No creation for retired work

What the log of a run says about retirement: a record that is retired is never
committed to a creation, a process that drains admits nothing any more, and a cycle
creates only what it found to be within its lifetime.
-/

namespace RunnerScout.Ticks

open Interaction Lifecycle Placement Operator State
open Capacity (Call)

/-- The process was told to drain, whatever it was told about admissions since. -/
def AfterDrain (o : Operator) : Prop :=
  ∃ (origin : Operator) (pauses : List Bool), o = pauses.foldl Operator.pauseAdmissions origin.drain

theorem AfterDrain.draining {o : Operator} (drained : AfterDrain o) : o.draining = true := by
  obtain ⟨origin, pauses, rfl⟩ := drained
  have kept (o : Operator) (drains : o.draining = true) : (pauses.foldl Operator.pauseAdmissions o).draining = true := by
    induction pauses generalizing o with
    | nil => exact drains
    | cons paused rest ih => exact ih (o.pauseAdmissions paused) drains
  exact kept origin.drain rfl

/-- What a log says about retired work, and about work that is drained or overdue. -/
structure LeavesRetired (crew : Crew) (first : Maps) (log : Log) : Prop where
  /-- A creation is committed only on a pending record that is not retired. -/
  committed : ∀ recent thread before after earlier, log = recent ++ .wrote thread before after :: earlier →
    ∀ id r stored, before.record id = some r → after.record id = some stored → r.phase ≠ .creating →
      stored.phase = .creating → r.phase = .pending ∧ r.retire = false
  /-- A process that drains adds nothing to the fleet. -/
  drained : ∀ recent thread before after earlier, log = recent ++ .wrote thread before after :: earlier →
    AfterDrain (crew.calls thread).operator →
    ∀ id ∈ (after.fleet crew.name).created, id ∈ (before.fleet crew.name).created
  /-- A cycle that does not overlap other calls creates nothing once its process drains, and
      only what was within its lifetime by the instant it read, since it saved the fleet, to
      examine that allocation. -/
  examined : crew.Serial → ∀ recent thread interruptions request reply earlier,
    log = recent ++ .asked thread interruptions request reply :: earlier → ∀ a, created request = some a →
    ∀ o, crew.calls thread = .tick o →
      ¬ AfterDrain o ∧ ∃ stamp now, ((mapsAt first earlier).fleet crew.name).created.lookup a.id = some stamp ∧
        ReadSince crew.name thread earlier a.id now ∧ now < stamp + o.config.maxLifetimeSeconds * second

/-- Only an allocation that is not retired goes on waiting for an offering. -/
theorem retire_of_waits {r : Allocation} {now : Time} (waits : r.givesUp now = false) : r.retire = false := by
  simp only [Allocation.givesUp, Bool.or_eq_false_iff] at waits
  exact waits.1.1

section Reasons

variable {crew : Crew} {maps : Maps} {log : Log} {thread : Nat} {c : Controller} {r x stored : Allocation}

/-- Of all that `Step` saves, only a commit makes a record creating. -/
theorem writes_creating {view : View} (writes : view.writes c x) (held : view.held = some r)
    (starts : r.phase ≠ .creating) (creating : x.phase = .creating) : r.phase = .pending ∧ r.retire = false := by
  cases writes with
  | pending phase retains write =>
    cases held
    cases write with
    | timeOut => cases creating
    | refused => exact absurd creating starts
    | commit waits o chosen => exact ⟨phase, retire_of_waits waits⟩
  | fence phase =>
    cases held
    exact absurd phase starts
  | cleanUp => cases creating
  | created write =>
    cases held
    cases write with
    | preparationFailed | capacityRejected | vmCreated => cases creating
    | unmerged | uncertain => exact absurd creating starts
  | observed write =>
    cases held
    cases write with
    | remember | undecided | unconfirmed => exact absurd creating starts
    | release => cases creating
    | found phase => exact absurd phase starts

theorem Replaced.committed (replaced : Replaced crew maps log thread (some r) (some stored))
    (starts : r.phase ≠ .creating) (creating : stored.phase = .creating) : r.phase = .pending ∧ r.retire = false := by
  cases replaced with
  | edited edit stores =>
    -- the other writers leave the phase alone
    rename_i x
    have phase : x.phase = r.phase := by
      obtain edit | rfl | rfl := edit
      · rw [edit.touched]
      · rfl
      · rfl
    rw [stores.saved] at creating
    exact absurd (phase.symm.trans creating) starts
  | stepped writes held backed stores =>
    rw [stores.saved] at creating
    exact writes_creating writes held starts creating

theorem Wrote.committed {before after : Maps} (wrote : Wrote crew log thread before after) {id : String}
    (old : before.record id = some r) (new : after.record id = some stored) (starts : r.phase ≠ .creating)
    (creating : stored.phase = .creating) : r.phase = .pending ∧ r.retire = false := by
  have unchanged (same : before.record id = some stored) : False := by
    rw [old] at same
    cases same
    exact starts creating
  cases wrote with
  | fleet records => exact (unchanged (records ▸ new)).elim
  | @record other replacement records fleet reason =>
    rw [records] at new
    by_cases same : id = other
    · subst same
      rw [Function.update_self] at new
      subst new
      rw [old] at reason
      exact reason.committed starts creating
    · rw [Function.update_of_ne same] at new
      exact (unchanged new).elim

theorem Wrote.drained {before after : Maps} (wrote : Wrote crew log thread before after)
    (drained : AfterDrain (crew.calls thread).operator) :
    ∀ id ∈ (after.fleet crew.name).created, id ∈ (before.fleet crew.name).created := by
  cases wrote with
  | fleet records draining => exact draining drained.draining
  | record records fleet reason =>
    rw [fleet]
    exact fun _ member => member

end Reasons

/-- Retired work is not created: whatever the cycles of a run find pending, recorded or
    already created, and whichever of their saves fail. -/
theorem no_creation_for_retired_work {crew : Crew} {first : Maps} {system : System Api Site Capacity.Outcome}
    (run : crew.Run first system) : LeavesRetired crew first system.world.history := by
  have chronicle := (run_kept run).chronicle
  refine ⟨?committed, ?drained, ?examined⟩
  case committed =>
    intro recent thread before after earlier log id r stored old new starts creating
    rw [log] at chronicle
    exact chronicle.written.2.committed old new starts creating
  case drained =>
    intro recent thread before after earlier log drained
    rw [log] at chronicle
    exact chronicle.written.2.drained drained
  case examined =>
    intro serial recent thread interruptions request reply earlier log a creates o call
    rw [log] at chronicle
    obtain ⟨_, _, commits⟩ := chronicle.asked
    cases commits a creates with
    | @intro _ _ _ r pending waits chosen saved shown examined =>
      have same : a.id = r.id := by rw [saved]; rfl
      rw [same]
      obtain ⟨running, within⟩ := examined serial o call (retire_of_waits waits)
      refine ⟨fun drained => ?_, within⟩
      rw [drained.draining] at running
      cases running

/-! ## A process that drains -/

def Event.creates : Event → Bool
  | .asked _ _ request _ => (created request).isSome
  | _ => false

def creatingOperator : Operator :=
  { Capacity.smallOperator with controller := { providers := AList.singleton "aws" ⟨true, true⟩ } }

/-- A process drains, its admissions resumed in vain; the next one creates a runner. -/
def drainingCalls : Nat → Call
  | 0 => .desiredRunnerCount (creatingOperator.drain.pauseAdmissions false) 2
  | 1 => .tick (creatingOperator.drain.pauseAdmissions false)
  | 2 => .desiredRunnerCount creatingOperator 1
  | _ => .tick creatingOperator

theorem drainingCalls_named (thread : Nat) : (drainingCalls thread).operator.config.name = "ci" := by
  unfold drainingCalls
  split <;> rfl

def drainingCrew : Crew where
  name := "ci"
  calls := drainingCalls
  named := drainingCalls_named
  together := System.serial
  distinct := fun _ overlap => overlap
  answers := fun _ _ _ _ => True

def drainingRun : System Api Site Capacity.Outcome :=
  drainingCrew.played
    (drainingCrew.script (fun _ _ => 2 * second) (fun _ request _ => silence request) fun _ _ _ _ => trivial)
    [(0, 100), (1, 100), (2, 100), (3, 12)] { history := [] }

theorem no_creation_for_retired_work_drainingRun :
    drainingCrew.Serial ∧ drainingCrew.Run ∅ drainingRun ∧ drainingRun.world.history.any Event.creates = true ∧
      LeavesRetired drainingCrew ∅ drainingRun.world.history :=
  have run : drainingCrew.Run ∅ drainingRun := Crew.played_run _ _ _ (Initial.empty _)
  ⟨fun _ _ overlap => overlap, run, by decide +kernel, no_creation_for_retired_work run⟩

end RunnerScout.Ticks
