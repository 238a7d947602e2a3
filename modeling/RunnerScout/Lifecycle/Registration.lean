import RunnerScout.Lifecycle.Cell
import RunnerScout.Operator.Jobs

/-! # The registration of a runner

GitHub knows a runner from the bootstrap inside its create call until a
deregistration succeeds.  Deregistering and saving the terminal phase are two
calls, each of which can fail on its own; a record is made terminal only in the
`Step` that was told its runner is gone, and that `Step` creates nothing any more.
-/

namespace RunnerScout.Lifecycle

open Interaction Operator

/-! ## What happens to a registration -/

inductive Entry where
  | registered
  | cleared
  | stored (phase : Phase)
deriving DecidableEq, Repr

/-- What GitHub knows after some entries, the latest first. -/
def registered : List Entry → Bool
  | [] => false
  | .registered :: _ => true
  | .cleared :: _ => false
  | .stored _ :: log => registered log

/-- A create call registers the runner or not, whatever it answers.  A deregistration
    that fails may have been carried out all the same. -/
def registrationTraces : Traces (List Entry) where
  create := fun _ _ log _ after => after = log ∨ after = .registered :: log
  observe := fun _ _ log _ after => after = log
  delete := fun _ _ log _ after => after = log
  now := fun _ log _ after => after = log
  deregister := fun _ record id log reply after =>
    (id = record.id ∧ after = .cleared :: log) ∨ ((reply = none → id ≠ record.id) ∧ after = log)
  save := fun _ _ after log => .stored after.phase :: log

/-- Thread `0` is the controller, with a deregistrar of its own; all other threads are
    other writers of the record. -/
def registrationStarts (id : String) (thread : Nat) (program : Program Calls (Option GoError)) : Prop :=
  (thread = 0 ∧ ∃ c : Controller, c.runners = true ∧ program = c.step id) ∨ (thread ≠ 0 ∧ Writer id program)

def Unregistered (w : Cell (List Entry)) : Prop := w.record.phase = .pending ∧ w.ghost = []

/-! ## The invariant -/

structure Deregistered (w : Cell (List Entry)) : Prop where
  terminal : w.record.phase.terminal = true → registered w.ghost = false
  /-- Since a terminal phase was stored, nothing has been registered. -/
  silent : ∀ recent phase earlier, w.ghost = recent ++ .stored phase :: earlier → phase.terminal = true →
    w.record.phase.terminal = true ∧ .registered ∉ recent

theorem Unregistered.deregistered {w : Cell (List Entry)} (fresh : Unregistered w) : Deregistered w := by
  obtain ⟨phase, empty⟩ := fresh
  refine ⟨fun terminal => ?_, fun recent phase earlier same => ?_⟩
  · rw [phase] at terminal
    cases terminal
  · rw [empty] at same
    cases recent <;> cases same

/-- One more entry, of a record that stays terminal once it is. -/
theorem Deregistered.entry {w : Cell (List Entry)} (kept : Deregistered w) {record : Allocation} {entry : Entry}
    (stays : w.record.phase.terminal = true → record.phase.terminal = true ∧ entry ≠ .registered)
    (stored : ∀ phase, entry = .stored phase → phase = record.phase)
    (terminal : record.phase.terminal = true → registered (entry :: w.ghost) = false) :
    Deregistered ⟨record, entry :: w.ghost⟩ := by
  refine ⟨terminal, fun recent phase earlier same ended => ?_⟩
  cases recent with
  | nil =>
    obtain ⟨rfl, _⟩ := List.cons.inj same
    exact ⟨stored phase rfl ▸ ended, List.not_mem_nil⟩
  | cons latest recent =>
    obtain ⟨rfl, rest⟩ := List.cons.inj same
    obtain ⟨before, quiet⟩ := kept.silent recent phase earlier rest ended
    obtain ⟨now, different⟩ := stays before
    exact ⟨now, fun member => (List.mem_cons.mp member).elim (fun same => different same.symm) quiet⟩

/-- The controller relies on nobody else to register the runner or to change the phase. -/
def registrationRely : Rely (Cell (List Entry)) where
  invariant := Deregistered
  rely := fun thread before after =>
    Snapshot after.record before.record ∧
      (thread = 0 → after.record.phase = before.record.phase ∧ after.record.id = before.record.id ∧
        registered after.ghost = registered before.ghost)
  refl := fun _ w => ⟨.self w.record, fun _ => ⟨rfl, rfl, rfl⟩⟩
  trans := by
    intro thread first second third earlier later
    refine ⟨later.1.trans earlier.1, fun controller => ?_⟩
    obtain ⟨phase, id, known⟩ := earlier.2 controller
    obtain ⟨phaseLater, idLater, knownLater⟩ := later.2 controller
    exact ⟨phaseLater.trans phase, idLater.trans id, knownLater.trans known⟩

/-- The record held is the one stored or an older version of it. -/
def Holding (w : Cell (List Entry)) (a : Allocation) : Prop := Snapshot w.record a ∧ a.id = w.record.id

/-- What the controller knows of the registration from its view. -/
def View.registrationHolds : View → Cell (List Entry) → Prop
  | .start, _ | .closed, _ => True
  | .loaded a, w => Holding w a
  | .deciding _ a cleared, w | .observed _ a _ _ cleared, w =>
    Holding w a ∧ (cleared = true → registered w.ghost = false)
  | .committed _ _ a, w | .created _ _ a _ _, w => Holding w a ∧ w.record.phase.terminal = false

theorem View.registrationHolds_stable (view : View) {before after : Cell (List Entry)}
    (holds : view.registrationHolds before) (relied : registrationRely.rely 0 before after) :
    view.registrationHolds after := by
  obtain ⟨later, own⟩ := relied
  obtain ⟨phase, id, known⟩ := own rfl
  have holding {a : Allocation} (held : Holding before a) : Holding after a :=
    ⟨later.trans held.1, held.2.trans id.symm⟩
  cases view with
  | start | closed => trivial
  | loaded a => exact holding holds
  | deciding now a cleared | observed now a ob e cleared =>
    exact ⟨holding holds.1, fun gone => known.trans (holds.2 gone)⟩
  | committed now o a | created now o a creation e => exact ⟨holding holds.1, phase ▸ holds.2⟩

theorem View.registrationHolds_holding {view : View} {a : Allocation} {w : Cell (List Entry)}
    (holds : view.registrationHolds w) (held : view.held = some a) : Holding w a := by
  cases view with
  | start | closed => cases held
  | loaded b =>
    cases held
    exact holds
  | deciding | committed | created | observed =>
    cases held
    exact holds.1

/-! ## What the controller saves -/

section Saves

variable {c : Controller} {w : Cell (List Entry)} {x : Allocation} {view : View}

/-- A record is saved as terminal only where its runner is known to be gone, and a
    terminal record stays one. -/
theorem View.writes_terminal (runners : c.runners = true) (kept : Deregistered w) (holds : view.registrationHolds w)
    (writes : view.writes c x) (holding : view.held = some w.record) :
    (w.record.phase.terminal = true → x.phase.terminal = true) ∧
      (x.phase.terminal = true → registered w.ghost = false) := by
  have gone {cleared : Bool} (deregistered : cleared = true ∨ c.runners = false) : cleared = true :=
    deregistered.resolve_right (by simp [runners])
  have same (unchanged : x.phase = w.record.phase) :
      (w.record.phase.terminal = true → x.phase.terminal = true) ∧
        (x.phase.terminal = true → registered w.ghost = false) := by
    rw [unchanged]
    exact ⟨id, kept.terminal⟩
  cases writes with
  | pending phase retains write =>
    cases holding
    cases write with
    | timeOut givesUp deregistered => exact ⟨fun _ => rfl, fun _ => holds.2 (gone deregistered)⟩
    | refused => exact same rfl
    | commit =>
      refine ⟨fun terminal => ?_, fun terminal => by cases terminal⟩
      rw [phase] at terminal
      cases terminal
  | fence phase =>
    cases holding
    exact same rfl
  | cleanUp phase overdue =>
    cases holding
    refine ⟨fun terminal => ?_, fun terminal => by cases terminal⟩
    rw [phase] at terminal
    cases terminal
  | created write =>
    cases holding
    have live := holds.2
    refine ⟨fun terminal => Bool.noConfusion (live.symm.trans terminal), fun terminal => ?_⟩
    cases write with
    | preparationFailed | capacityRejected | vmCreated => cases terminal
    | unmerged | uncertain => exact Bool.noConfusion (live.symm.trans terminal)
  | observed write =>
    cases holding
    cases write with
    | remember | undecided | unconfirmed => exact same rfl
    | release live absent deregistered => exact ⟨fun _ => rfl, fun _ => holds.2 (gone deregistered)⟩
    | found creating succeeded known present =>
      refine ⟨fun terminal => ?_, fun terminal => ?_⟩
      · rw [creating] at terminal
        cases terminal
      · unfold Allocation.found Allocation.cleanUp at terminal
        dsimp only at terminal
        split at terminal <;> cases terminal

theorem View.writes_deregistered {held after : Allocation} (runners : c.runners = true) (kept : Deregistered w)
    (holds : view.registrationHolds w) (writes : view.writes c x) (holding : view.held = some held)
    (stores : Stores w.record x held.revision after) :
    Deregistered ⟨after, .stored after.phase :: w.ghost⟩ ∧
      (view.next (.save x held.revision) (.ok after)).registrationHolds ⟨after, .stored after.phase :: w.ghost⟩ := by
  have current : held = w.record := (View.registrationHolds_holding holds holding).1.applied stores
  subst current
  have saved : after.phase = x.phase := by rw [stores.saved]
  obtain ⟨stays, clear⟩ := View.writes_terminal runners kept holds writes holding
  rw [← saved] at stays clear
  refine ⟨kept.entry (fun terminal => ⟨stays terminal, Entry.noConfusion⟩) (fun phase same => ?_) clear, ?_⟩
  · cases same
    rfl
  cases writes with
  | @pending now a cleared x phase retains write =>
    cases holding
    simp only [View.next]
    split
    · rename_i starts
      refine ⟨⟨.self after, rfl⟩, ?_⟩
      change after.phase.terminal = false
      rw [saved, starts.2]
      rfl
    · exact ⟨⟨.self after, rfl⟩, holds.2⟩
  | fence phase =>
    cases holding
    simp only [View.next, phase, reduceCtorEq, false_and, if_false]
    exact ⟨⟨.self after, rfl⟩, holds.2⟩
  | cleanUp phase overdue =>
    cases holding
    simp only [View.next, phase, reduceCtorEq, false_and, if_false]
    exact ⟨⟨.self after, rfl⟩, holds.2⟩
  | created write => trivial
  | observed write =>
    cases holding
    exact ⟨⟨.self after, rfl⟩, holds.2⟩

end Saves

/-! ## Every request -/

section Requests

variable {c : Controller} {w after : Cell (List Entry)}

theorem controller_deregistered {view next : View} (runners : c.runners = true) (kept : Deregistered w)
    (holds : view.registrationHolds w) (move : StepMove registrationTraces c 0 w view after next) :
    Deregistered after ∧ Snapshot after.record w.record ∧ next.registrationHolds after := by
  have cleared : Deregistered ⟨w.record, .cleared :: w.ghost⟩ :=
    kept.entry (fun terminal => ⟨terminal, Entry.noConfusion⟩) (fun _ same => by cases same) fun _ => rfl
  cases move with
  | failed => exact ⟨kept, .self w.record, trivial⟩
  | loaded => exact ⟨kept, .self w.record, .self w.record, rfl⟩
  | clock shows =>
    cases shows
    exact ⟨kept, .self w.record, holds, fun gone => by cases gone⟩
  | cleared deregister | clearedAbsent absent deregister =>
    obtain ⟨_, rfl⟩ | ⟨other, _⟩ := deregister
    · exact ⟨cleared, .self w.record, holds.1, fun _ => rfl⟩
    · exact absurd holds.1.2 (other rfl)
  | uncleared deregister =>
    obtain ⟨_, rfl⟩ | ⟨_, rfl⟩ := deregister
    · exact ⟨cleared, .self w.record, trivial⟩
    · exact ⟨kept, .self w.record, trivial⟩
  | saved writes holding stores =>
    obtain ⟨keeps, next⟩ := View.writes_deregistered runners kept holds writes holding stores
    exact ⟨keeps, .of_stores stores, next⟩
  | savedUnheard writes holding stores =>
    obtain ⟨keeps, _⟩ := View.writes_deregistered runners kept holds writes holding stores
    exact ⟨keeps, .of_stores stores, trivial⟩
  | created create =>
    obtain ⟨holding, live⟩ := holds
    obtain rfl | rfl := create
    · exact ⟨kept, .self w.record, holding, live⟩
    · -- a runner is registered only while the record is not terminal
      have unended (terminal : w.record.phase.terminal = true) : False := Bool.noConfusion (live.symm.trans terminal)
      exact ⟨kept.entry (fun terminal => (unended terminal).elim) (fun _ same => by cases same)
        (fun terminal => (unended terminal).elim), .self w.record, holding, live⟩
  | observed phase observe =>
    cases observe
    exact ⟨kept, .self w.record, holds.1, fun gone => by cases gone⟩
  | deleted delete =>
    cases delete
    exact ⟨kept, .self w.record, trivial⟩
  | undeleted delete =>
    cases delete
    exact ⟨kept, .self w.record, holds⟩

theorem writer_deregistered {thread : Nat} (kept : Deregistered w)
    (move : WriterMove registrationTraces Edit thread w after) :
    Deregistered after ∧ ∀ thread, registrationRely.rely thread w after := by
  cases move with
  | idle => exact ⟨kept, fun thread => registrationRely.refl thread w⟩
  | clock shows =>
    cases shows
    exact ⟨kept, fun thread => registrationRely.refl thread w⟩
  | @edited x a edit stores =>
    have phase : a.phase = w.record.phase := by rw [stores.saved, edit.touched]
    refine ⟨kept.entry (fun terminal => ⟨phase ▸ terminal, Entry.noConfusion⟩) (fun phase same => ?_)
      fun terminal => kept.terminal (phase ▸ terminal), fun _ => ⟨.of_stores stores, fun _ => ⟨phase, stores.id_eq, rfl⟩⟩⟩
    cases same
    rfl

end Requests

/-! ## Whole runs -/

theorem deregistered_kept {id : String} {system : System Calls (Cell (List Entry)) (Option GoError)}
    (reachable : System.Reachable registrationTraces.semantics (fun _ _ => False) (registrationStarts id)
      System.concurrent Unregistered system) : Deregistered system.world := by
  have fresh (thread : Nat) (w : Cell (List Entry)) (program : Program Calls (Option GoError))
      (starts : registrationStarts id thread program) :
      registrationRely.Safe registrationTraces.semantics thread program (fun _ _ => True) w := by
    obtain ⟨rfl, c, runners, rfl⟩ | ⟨notController, writer⟩ := starts
    · refine Rely.safe_of_follows (stepProtocol c) View.registrationHolds ?_ ?_ (step_follows id) trivial
        fun _ _ _ _ _ => trivial
      · intro view before after _ holds relied
        exact view.registrationHolds_stable holds relied
      · intro view w request reply after kept holds allowed executed
        obtain ⟨answered, move⟩ := step_move allowed executed
        obtain ⟨keeps, later, next⟩ := controller_deregistered runners kept holds move
        exact ⟨keeps, fun other different => ⟨later, fun controller => absurd controller different⟩, answered, next⟩
    · exact writer_safe (fun _ _ relied => relied.1) (fun _ _ _ _ executed => executed)
        (fun _ _ kept move => (writer_deregistered kept move).imp_right fun others other _ => others other) (writer_follows writer)
  have safe : Rely.SystemSafe registrationRely registrationTraces.semantics (fun _ _ _ => True) system :=
    Rely.reachable_safe (fun _ fresh => fresh.deregistered) (fun _ _ _ moved => moved.elim)
      (fun thread w program _ starts => fresh thread w program starts) reachable
  exact safe.invariant

end RunnerScout.Lifecycle
