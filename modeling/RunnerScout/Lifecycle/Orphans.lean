import RunnerScout.Lifecycle.Cell
import RunnerScout.Operator.Jobs

/-! # No orphaned virtual machine

The cloud of one allocation is whether something of it exists and whether a create
request may still take effect.  A provider is honest when a definitive rejection
means nothing was created and a confirmed absence means nothing exists and nothing
is on its way.  With one controller at a time, a record in a phase nobody looks
behind any more (`Pending`, `TimedOut`, `Deleted`) then has nothing in the cloud.
-/

namespace RunnerScout.Lifecycle

open Interaction Placement Operator

/-! ## The cloud -/

structure Cloud where
  present : Bool
  inFlight : Bool
deriving DecidableEq, Repr

def Cloud.clear (cloud : Cloud) : Prop := cloud.present = false ∧ cloud.inFlight = false

/-- What the cloud does by itself: a request on its way takes effect or is dropped,
    and whatever exists may vanish. -/
def Cloud.Later (before after : Cloud) : Prop :=
  (after.present = true → before.present = true ∨ before.inFlight = true) ∧
    (after.inFlight = true → before.inFlight = true)

theorem Cloud.Later.refl (cloud : Cloud) : Cloud.Later cloud cloud := ⟨.inl, id⟩

theorem Cloud.Later.trans {first second third : Cloud} (earlier : Cloud.Later first second)
    (later : Cloud.Later second third) : Cloud.Later first third := by
  refine ⟨fun present => ?_, fun inFlight => earlier.2 (later.2 inFlight)⟩
  obtain present | inFlight := later.1 present
  · exact earlier.1 present
  · exact .inr (earlier.2 inFlight)

theorem Cloud.Later.clear {before after : Cloud} (later : Cloud.Later before after) (clear : before.clear) :
    after.clear := by
  obtain ⟨absent, none⟩ := clear
  refine ⟨Bool.eq_false_iff.mpr fun present => ?_, Bool.eq_false_iff.mpr fun inFlight => ?_⟩
  · simpa [absent, none] using later.1 present
  · simpa [none] using later.2 inFlight

/-- Truthful providers.  A create that is not definitively rejected may leave anything
    behind, whatever it reports. -/
def honestCloud : CloudSemantics Cloud where
  create := fun _ _ cloud reply after => definitiveRejection reply.1 reply.2 = true → after = cloud
  observe := fun _ _ cloud reply after => after = cloud ∧ (reply.1.absent reply.2 → cloud.clear)
  delete := fun _ _ cloud _ after => cloud.Later after

abbrev cloudSemantics : Semantics Calls (Cell Cloud) := cellSemantics honestCloud fun _ _ _ cloud => cloud

def cloudMoves (before after : Cell Cloud) : Prop :=
  after.record = before.record ∧ before.ghost.Later after.ghost

/-- Phases in which nothing looks for a resource any more. -/
def Phase.settled : Phase → Bool
  | .pending | .timedOut | .deleted => true
  | _ => false

/-- Thread `0` is the controller; all other threads are other writers of the record. -/
def orphanStarts (id : String) (thread : Nat) (program : Program Calls (Option GoError)) : Prop :=
  (thread = 0 ∧ ∃ c : Controller, program = c.step id) ∨ (thread ≠ 0 ∧ Writer id program)

/-! ## The invariant -/

def OrphanFree (w : Cell Cloud) : Prop := w.record.phase.settled = true → w.ghost.clear

/-- The controller relies on nobody else to create anything or to change the phase. -/
def orphanRely : Rely (Cell Cloud) where
  invariant := OrphanFree
  rely := fun thread before after =>
    Snapshot after.record before.record ∧
      (thread = 0 → after.record.phase = before.record.phase ∧ before.ghost.Later after.ghost)
  refl := fun _ w => ⟨.self w.record, fun _ => ⟨rfl, .refl w.ghost⟩⟩
  trans := by
    intro thread first second third earlier later
    refine ⟨later.1.trans earlier.1, fun controller => ?_⟩
    obtain ⟨phase, cloud⟩ := earlier.2 controller
    obtain ⟨phaseLater, cloudLater⟩ := later.2 controller
    exact ⟨phaseLater.trans phase, cloud.trans cloudLater⟩

/-- What the controller knows of the cloud from its view. -/
def View.cloudHolds : View → Cell Cloud → Prop
  | .start, _ | .closed, _ => True
  | .loaded a, w | .deciding _ a _, w => Snapshot w.record a
  | .observed _ a ob e _, w =>
    Snapshot w.record a ∧ (a.phase.settled = true → w.ghost.clear) ∧ (ob.absent e → w.ghost.clear)
  | .committed _ _ a, w => Snapshot w.record a ∧ w.record.phase.settled = false ∧ w.ghost.clear
  | .created _ _ a creation e, w =>
    Snapshot w.record a ∧ w.record.phase.settled = false ∧
      (definitiveRejection creation e = true → w.ghost.clear)

theorem View.cloudHolds_stable (view : View) {before after : Cell Cloud} (holds : view.cloudHolds before)
    (relied : orphanRely.rely 0 before after) : view.cloudHolds after := by
  obtain ⟨later, own⟩ := relied
  obtain ⟨phase, cloud⟩ := own rfl
  cases view with
  | start => trivial
  | closed => trivial
  | loaded a => exact later.trans holds
  | deciding now a cleared => exact later.trans holds
  | observed now a ob e cleared =>
    obtain ⟨snapshot, settled, absent⟩ := holds
    exact ⟨later.trans snapshot, fun done => cloud.clear (settled done), fun gone => cloud.clear (absent gone)⟩
  | committed now o a =>
    obtain ⟨snapshot, unsettled, clear⟩ := holds
    exact ⟨later.trans snapshot, phase ▸ unsettled, cloud.clear clear⟩
  | created now o a creation e =>
    obtain ⟨snapshot, unsettled, rejected⟩ := holds
    exact ⟨later.trans snapshot, phase ▸ unsettled, fun definitive => cloud.clear (rejected definitive)⟩

theorem View.cloudHolds_snapshot {view : View} {a : Allocation} {w : Cell Cloud} (holds : view.cloudHolds w)
    (held : view.held = some a) : Snapshot w.record a := by
  cases view <;> cases held
  · exact holds
  · exact holds
  · exact holds.1
  · exact holds.1
  · exact holds.1

/-! ## What the controller saves -/

section Saves

variable {c : Controller} {w : Cell Cloud} {x after : Allocation} {now : Time} {e : Option GoError}
  {cleared : Bool} {revision : Revision}

theorem PendingWrite.clear (write : PendingWrite c now w.record cleared x) (clear : w.ghost.clear)
    (stores : Stores w.record x revision after) (phase : w.record.phase = .pending) :
    OrphanFree ⟨after, w.ghost⟩ ∧
      (View.next (.deciding now w.record cleared) (.save x revision) (.ok after)).cloudHolds ⟨after, w.ghost⟩ := by
  refine ⟨fun _ => clear, ?_⟩
  cases write with
  | timeOut givesUp deregistered => simp [View.next, Allocation.timeOut, View.cloudHolds, Snapshot.self]
  | refused waits e refused => simp [View.next, phase, View.cloudHolds, Snapshot.self]
  | commit waits o chosen =>
    have creating : after.phase = .creating := by rw [stores.saved]; rfl
    simp only [View.next, phase, Allocation.commit, and_self, if_true, View.cloudHolds]
    exact ⟨.self after, by rw [creating]; rfl, clear⟩

theorem CreatedWrite.clear {o : Offering} {creation : Creation} (write : CreatedWrite now o w.record creation e x)
    (unsettled : w.record.phase.settled = false) (rejected : definitiveRejection creation e = true → w.ghost.clear)
    (settled : x.phase.settled = true) : w.ghost.clear := by
  cases write with
  | preparationFailed noEffect empty => exact rejected (by simp [definitiveRejection, noEffect, empty])
  | capacityRejected capacity empty => exact rejected (by simp [definitiveRejection, capacity, empty])
  | unmerged ambiguous err failed => exact Bool.noConfusion (unsettled.symm.trans settled)
  | uncertain ambiguous unknown resources changed merged => exact Bool.noConfusion (unsettled.symm.trans settled)
  | vmCreated named succeeded resources changed merged => cases settled

theorem ObservedWrite.clear {ob : Observation} (write : ObservedWrite c now w.record ob e cleared x)
    (kept : w.record.phase.settled = true → w.ghost.clear) (absent : ob.absent e → w.ghost.clear)
    (settled : x.phase.settled = true) : w.ghost.clear := by
  cases write with
  | remember resources merged => exact kept settled
  | undecided unknown => exact kept settled
  | unconfirmed deleting err => exact kept settled
  | release live gone deregistered => exact absent gone
  | found creating succeeded known present =>
    unfold Allocation.found Allocation.cleanUp at settled
    dsimp only at settled
    split at settled <;> cases settled

theorem View.writes_clear {view : View} {held : Allocation} (kept : OrphanFree w) (holds : view.cloudHolds w)
    (writes : view.writes c x) (holding : view.held = some held)
    (stores : Stores w.record x held.revision after) :
    OrphanFree ⟨after, w.ghost⟩ ∧ (view.next (.save x held.revision) (.ok after)).cloudHolds ⟨after, w.ghost⟩ := by
  have current : held = w.record := (View.cloudHolds_snapshot holds holding).applied stores
  subst current
  have saved : after.phase = x.phase := by rw [stores.saved]
  cases writes with
  | pending phase retains write =>
    cases holding
    exact write.clear (kept (by rw [phase]; rfl)) stores phase
  | fence phase =>
    cases holding
    refine ⟨fun settled => kept (saved ▸ settled), ?_⟩
    simp [View.next, phase, View.cloudHolds, Snapshot.self]
  | cleanUp phase overdue =>
    cases holding
    refine ⟨fun settled => ?_, ?_⟩
    · rw [saved] at settled
      cases settled
    · simp [View.next, phase, View.cloudHolds, Snapshot.self]
  | created write =>
    cases holding
    exact ⟨fun settled => write.clear holds.2.1 holds.2.2 (saved ▸ settled), trivial⟩
  | observed write =>
    cases holding
    have clear (settled : after.phase.settled = true) := write.clear holds.2.1 holds.2.2 (saved ▸ settled)
    exact ⟨clear, .self after, clear, holds.2.2⟩

end Saves

/-! ## Every request -/

section Requests

variable {c : Controller} {w after : Cell Cloud}

theorem controller_kept {view next : View} (kept : OrphanFree w) (holds : view.cloudHolds w)
    (move : StepMove (honestCloud.traces fun _ _ _ cloud => cloud) c 0 w view after next) :
    OrphanFree after ∧ Snapshot after.record w.record ∧ next.cloudHolds after := by
  cases move with
  | failed => exact ⟨kept, .self w.record, trivial⟩
  | loaded => exact ⟨kept, .self w.record, .self w.record⟩
  | clock shows =>
    cases shows
    exact ⟨kept, .self w.record, holds⟩
  | cleared deregister =>
    cases deregister
    exact ⟨kept, .self w.record, holds⟩
  | clearedAbsent absent deregister =>
    cases deregister
    exact ⟨kept, .self w.record, holds⟩
  | uncleared deregister =>
    cases deregister
    exact ⟨kept, .self w.record, trivial⟩
  | saved writes holding stores =>
    obtain ⟨keeps, next⟩ := View.writes_clear kept holds writes holding stores
    exact ⟨keeps, .of_stores stores, next⟩
  | savedUnheard writes holding stores =>
    obtain ⟨keeps, _⟩ := View.writes_clear kept holds writes holding stores
    exact ⟨keeps, .of_stores stores, trivial⟩
  | created create =>
    obtain ⟨snapshot, unsettled, clear⟩ := holds
    refine ⟨fun settled => Bool.noConfusion (unsettled.symm.trans settled), .self w.record, snapshot, unsettled, ?_⟩
    intro definitive
    rw [create definitive]
    exact clear
  | @observed now a ob e ghost phase observe =>
    obtain ⟨rfl, truthful⟩ := observe
    refine ⟨kept, .self w.record, holds, fun settled => ?_, truthful⟩
    obtain phase | phase | phase := phase <;> rw [phase] at settled <;> cases settled
  | deleted delete => exact ⟨fun settled => delete.clear (kept settled), .self w.record, trivial⟩
  | undeleted delete =>
    obtain ⟨snapshot, settled, absent⟩ := holds
    exact ⟨fun settled => delete.clear (kept settled), .self w.record, snapshot,
      fun done => delete.clear (settled done), fun gone => delete.clear (absent gone)⟩

theorem touch_kept {thread : Nat} (kept : OrphanFree w)
    (move : WriterMove (honestCloud.traces fun _ _ _ cloud => cloud) Edit thread w after) :
    OrphanFree after ∧ ∀ thread, orphanRely.rely thread w after := by
  cases move with
  | idle => exact ⟨kept, fun thread => orphanRely.refl thread w⟩
  | clock shows =>
    cases shows
    exact ⟨kept, fun thread => orphanRely.refl thread w⟩
  | @edited x a edit stores =>
    have phase : a.phase = w.record.phase := by rw [stores.saved, edit.touched]
    exact ⟨fun settled => kept (phase ▸ settled),
      fun _ => ⟨.of_stores stores, fun _ => ⟨phase, .refl w.ghost⟩⟩⟩

end Requests

/-! ## Whole runs -/

def FreshCloudCell (w : Cell Cloud) : Prop := w.record.phase = .pending ∧ w.ghost.clear

theorem orphanFree_kept {id : String} {system : System Calls (Cell Cloud) (Option GoError)}
    (reachable : System.Reachable cloudSemantics cloudMoves (orphanStarts id) System.concurrent FreshCloudCell system) :
    OrphanFree system.world := by
  have fresh (thread : Nat) (w : Cell Cloud) (program : Program Calls (Option GoError))
      (starts : orphanStarts id thread program) :
      orphanRely.Safe cloudSemantics thread program (fun _ _ => True) w := by
    obtain ⟨rfl, c, rfl⟩ | ⟨notController, writer⟩ := starts
    · refine Rely.safe_of_follows (stepProtocol c) View.cloudHolds ?_ ?_ (step_follows id) trivial
        fun _ _ _ _ _ => trivial
      · intro view before after _ holds relied
        exact view.cloudHolds_stable holds relied
      · intro view w request reply after kept holds allowed executed
        obtain ⟨answered, move⟩ := step_move allowed (cell_traces executed)
        obtain ⟨keeps, later, next⟩ := controller_kept kept holds move
        exact ⟨keeps, fun other different => ⟨later, fun controller => absurd controller different⟩, answered, next⟩
    · exact writer_safe (fun _ _ relied => relied.1) (fun _ _ _ _ executed => cell_traces executed)
        (fun _ _ kept move => (touch_kept kept move).imp_right fun others other _ => others other) (writer_follows writer)
  have moves (before after : Cell Cloud) (kept : OrphanFree before) (moved : cloudMoves before after) :
      OrphanFree after ∧ ∀ thread, orphanRely.rely thread before after := by
    obtain ⟨same, later⟩ := moved
    refine ⟨fun settled => later.clear (kept (same ▸ settled)), fun thread => ⟨.inl same.symm, fun _ => ⟨?_, later⟩⟩⟩
    rw [same]
  have safe : Rely.SystemSafe orphanRely cloudSemantics (fun _ _ _ => True) system :=
    Rely.reachable_safe (fun _ fresh _ => fresh.2) moves (fun thread w program _ starts => fresh thread w program starts)
      reachable
  exact safe.invariant

/-- No orphaned virtual machine.  Whenever the stored phase is one nobody looks behind
    any more, nothing of the allocation exists and no create can still take effect. -/
theorem no_orphaned_vm {id : String} {system : System Calls (Cell Cloud) (Option GoError)}
    (reachable : System.Reachable cloudSemantics cloudMoves (orphanStarts id) System.concurrent FreshCloudCell system)
    (phase : system.world.record.phase = .pending ∨ system.world.record.phase = .timedOut ∨
      system.world.record.phase = .deleted) :
    system.world.ghost.present = false ∧ system.world.ghost.inFlight = false := by
  refine orphanFree_kept reachable ?_
  obtain phase | phase | phase := phase <;> rw [phase] <;> rfl

/-- A cloud that creates what it is asked for but never answers the create call. -/
def silentCloud : CloudOracle Cloud where
  create := fun _ _ _ => (({}, some (.new "context deadline exceeded")), ⟨true, false⟩)
  observe := fun _ _ cloud => (({ present := cloud.present, known := !cloud.inFlight }, none), cloud)
  delete := fun _ _ cloud => (none, ⟨false, cloud.inFlight⟩)

/-- The small record through its whole life: created without an answer, found again,
    completed, cleaned up and released. -/
def wholeLife : List (Nat × Nat × Program Calls (Option GoError)) :=
  let step := (0, 10, smallController.step "runner-1")
  [step, step, (1, 10, handleJobCompleted (some ⟨"runner-1"⟩)), step, step, step]

def lifeOver : Cell Cloud :=
  System.playAll (cellOracle 2 silentCloud fun _ _ _ cloud => cloud) wholeLife ⟨smallRecord, ⟨false, false⟩⟩

theorem lifeOver_reachable :
    System.Reachable cloudSemantics cloudMoves (orphanStarts "runner-1") System.concurrent FreshCloudCell
      ⟨lifeOver, fun _ => none⟩ := by
  have honest : silentCloud.Honest honestCloud := by
    refine ⟨fun _ _ _ => nofun, fun _ _ _ => rfl, fun _ _ cloud => ⟨rfl, ?_⟩, fun _ _ cloud => ⟨nofun, id⟩⟩
    rintro ⟨_, known, absent⟩
    exact ⟨absent, by simpa [silentCloud] using known⟩
  refine System.Reachable.playAll (fun _ => cellOracle_honest honest) _ ?_ (.initial _ ⟨rfl, rfl, rfl⟩)
  intro turn member
  simp only [wholeLife, List.mem_cons, List.not_mem_nil, or_false] at member
  obtain rfl | rfl | rfl | rfl | rfl | rfl := member
  all_goals first
    | exact .inl ⟨rfl, smallController, rfl⟩
    | exact .inr ⟨Nat.one_ne_zero, .jobCompleted _ rfl⟩

theorem no_orphaned_vm_lifeOver :
    lifeOver.record.phase = .deleted ∧ lifeOver.ghost.present = false :=
  ⟨by decide, (no_orphaned_vm lifeOver_reachable (.inr (.inr (by decide)))).1⟩

end RunnerScout.Lifecycle
