import RunnerScout.Lifecycle.Registration
import RunnerScout.Ticks.Retirement

/-! # No registered runner is left behind

A record that ends under a controller with a deregistrar has no registered runner.
A worker without one may end a record whose runner GitHub still knows; pruning is
what keeps that record until the runner is gone.
-/

namespace RunnerScout.Ticks

open Interaction Lifecycle Operator State
open Capacity (Call)

/-- Whether GitHub knows a runner after a log; `known` are the runners it knew before. -/
def registeredIn (known : String → Bool) (id : String) : Log → Bool
  | [] => known id
  | .registered runner :: log => runner = id || registeredIn known id log
  | .deregistered _ runner none :: log => !decide (runner = id) && registeredIn known id log
  | .deregistered _ _ (some _) :: log | .shown _ _ :: log | .examined _ _ _ :: log | .polled _ _ :: log | .asked _ _ _ _ :: log
  | .wrote _ _ _ :: log => registeredIn known id log

theorem Cleared.registeredIn {known : String → Bool} {id : String} {log : Log} (cleared : Cleared log id) :
    registeredIn known id log = false := by
  obtain ⟨recent, thread, earlier, rfl, unregistered⟩ := cleared
  induction recent with
  | nil => simp [Ticks.registeredIn]
  | cons event recent ih =>
    have rest := ih fun member => unregistered (List.mem_cons_of_mem _ member)
    cases event with
    | registered runner =>
      have other : runner ≠ id := by
        rintro rfl
        exact unregistered List.mem_cons_self
      simp [Ticks.registeredIn, other, rest]
    | deregistered thread runner reply => cases reply <;> simp [Ticks.registeredIn, rest]
    | shown | examined | polled | asked | wrote => exact rest

/-- A record goes only once its runner was deregistered. -/
theorem Wrote.unregistered {crew : Crew} {log : Log} {thread : Nat} {before after : Maps} (serial : crew.Serial)
    (wrote : Wrote crew log thread before after) {id : String} {r : Allocation} (old : before.record id = some r)
    (gone : after.record id = none) (known : String → Bool) : registeredIn known r.id log = false := by
  cases wrote with
  | fleet records =>
    rw [records, old] at gone
    cases gone
  | @record other replacement records fleet reason =>
    rw [records] at gone
    by_cases same : id = other
    · subst same
      rw [Function.update_self] at gone
      subst gone
      rw [old] at reason
      cases reason with
      | removed cleared => exact (cleared serial).registeredIn
    · rw [Function.update_of_ne same, old] at gone
      cases gone

/-- No record that ended under a controller with a deregistrar leaves a registered runner,
    nor does one that is pruned, whichever workers came before. -/
theorem no_registered_runner_left_behind :
    (∀ id (system : System Calls (Cell (List Entry)) (Option GoError)),
      System.Reachable registrationTraces.semantics (fun _ _ => False) (registrationStarts id) System.concurrent
        Unregistered system → Deregistered system.world) ∧
    ∀ (crew : Crew) (first : Maps) (system : System Api Site Capacity.Outcome), crew.Serial → crew.Run first system →
      ∀ recent thread before after earlier, system.world.history = recent ++ .wrote thread before after :: earlier →
        ∀ id r, before.record id = some r → after.record id = none →
          ∀ known, registeredIn known r.id earlier = false := by
  refine ⟨fun id system reachable => deregistered_kept reachable, ?_⟩
  intro crew first system serial run recent thread before after earlier log id r old gone known
  have chronicle := (run_kept run).chronicle
  rw [log] at chronicle
  exact chronicle.written.2.unregistered serial old gone known

/-! ## A record that ends while its runner is registered -/

/-- The creation of a runner is refused for want of capacity, after its bootstrap. -/
def refusingCloud : TracesOracle (List Entry) where
  create := fun _ _ log => (({}, some errCapacity), .registered :: log)
  observe := fun _ _ log => (({ known := true }, none), log)
  delete := fun _ _ log => (none, log)
  now := fun _ log => (if registered log then 10 * minute else 2, log)
  deregister := fun _ record id log => (none, if id = record.id then .cleared :: log else log)

def refusedWork : Cell (List Entry) :=
  System.playAll (tracesOracle refusingCloud registrationTraces.save)
    [(0, 10, smallController.step "runner-1"), (0, 10, smallController.step "runner-1")] ⟨smallRecord, []⟩

theorem refusedWork_reachable :
    System.Reachable registrationTraces.semantics (fun _ _ => False) (registrationStarts "runner-1") System.concurrent
      Unregistered ⟨refusedWork, fun _ => none⟩ := by
  have honest : refusingCloud.Honest registrationTraces := by
    refine ⟨⟨fun _ _ _ => .inr rfl, fun _ _ _ => rfl, fun _ _ _ => rfl, fun _ _ _ => rfl⟩, fun _ _ => rfl,
      fun thread record id log => ?_⟩
    by_cases own : id = record.id
    · exact .inl ⟨own, by simp [refusingCloud, own]⟩
    · exact .inr ⟨fun _ => own, by simp [refusingCloud, own]⟩
  refine System.Reachable.playAll (fun _ => tracesOracle_honest honest) _ ?_ (.initial _ ⟨rfl, rfl⟩)
  intro turn member
  simp only [List.mem_cons, List.not_mem_nil, or_false, or_self] at member
  subst member
  exact .inl ⟨rfl, smallController, rfl, rfl⟩

/-- One runner is wanted; a worker without a deregistrar ends it, and another one prunes it. -/
def mixedCalls : Nat → Call
  | 0 => .desiredRunnerCount creatingOperator 1
  | 2 => .tick { creatingOperator with controller := { creatingOperator.controller with runners := false } }
  | _ => .tick creatingOperator

theorem mixedCalls_named (thread : Nat) : (mixedCalls thread).operator.config.name = "ci" := by
  unfold mixedCalls
  split <;> rfl

def mixedCrew : Crew where
  name := "ci"
  calls := mixedCalls
  named := mixedCalls_named
  together := System.serial
  distinct := fun _ overlap => overlap
  answers := fun _ _ _ _ => True

def mixedTimes : Nat → Time
  | 0 | 1 => 2 * second
  | 2 => 100 * second
  | _ => 100 * second + terminalRetention

def mixedRun : System Api Site Capacity.Outcome :=
  mixedCrew.played
    (mixedCrew.script (fun thread _ => mixedTimes thread) (fun _ request _ => silence request) fun _ _ _ _ => trivial)
    [(0, 100), (1, 14), (2, 16), (3, 100)] { history := [] }

def Event.removes : Event → Bool
  | .wrote _ before after => before.keys.any fun id => (before.record id).isSome && (after.record id).isNone
  | _ => false

theorem no_registered_runner_left_behind_mixedRun :
    refusedWork.record.phase = .timedOut ∧ registered refusedWork.ghost = false ∧
      mixedRun.world.history.any Event.removes = true ∧
        ∀ recent thread before after earlier, mixedRun.world.history = recent ++ .wrote thread before after :: earlier →
          ∀ id r, before.record id = some r → after.record id = none →
            ∀ known, registeredIn known r.id earlier = false :=
  have ended : refusedWork.record.phase = .timedOut := by decide
  have run : mixedCrew.Run ∅ mixedRun := Crew.played_run _ _ _ (Initial.empty _)
  ⟨ended, (no_registered_runner_left_behind.1 _ _ refusedWork_reachable).terminal (by rw [ended]; rfl),
    by decide +kernel, no_registered_runner_left_behind.2 _ _ _ (fun _ _ overlap => overlap) run⟩

end RunnerScout.Ticks
