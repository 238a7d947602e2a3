import RunnerScout.Lifecycle.Cell
import RunnerScout.Operator.Jobs

/-! # No duplicate create

Every create call of one allocation, whoever makes it, is entered in a ledger
together with the saves that commit to it and take the commitment back.  The
ledger always reads as a sequence of finished rounds (commit, call, definitive
rejection, save back to `Pending`), followed by at most one open round, and the
stored record can be `Pending` or `TimedOut` only while no round is open.
-/

namespace RunnerScout.Lifecycle

open Interaction Placement Operator

variable {a : Allocation} {result : Option (Creation × Option GoError)} {ledger : Ledger} {o : Offering}
  {creation : Creation} {view : View}

/-! ## The ledger -/

inductive CreateEvent where
  /-- An applied save from `Pending` to `Creating`. -/
  | committed (thread : Nat) (before after : Allocation)
  | called (thread : Nat) (a : Allocation)
  | returned (thread : Nat) (a : Allocation) (creation : Creation) (e : Option GoError)
  /-- An applied save of the record `a` back to `Pending`. -/
  | reverted (thread : Nat) (a : Allocation)

namespace CreateEvent

def thread : CreateEvent → Nat
  | .committed thread _ _ | .called thread _ | .returned thread _ _ _ | .reverted thread _ => thread

def isCommit : CreateEvent → Bool
  | .committed _ _ _ => true
  | _ => false

def isCall : CreateEvent → Bool
  | .called _ _ => true
  | _ => false

end CreateEvent

abbrev Ledger := List CreateEvent

def ledgerSave (thread : Nat) (before after : Allocation) (ledger : Ledger) : Ledger :=
  if after.phase = before.phase then ledger
  else if after.phase = .creating then ledger ++ [.committed thread before after]
  else if after.phase = .pending then ledger ++ [.reverted thread before]
  else ledger

/-- Providers may answer anything; their create calls are entered in the ledger. -/
def ledgerCloud : CloudSemantics Ledger where
  create := fun thread a ledger reply after =>
    after = ledger ++ [.called thread a, .returned thread a reply.1 reply.2]
  observe := fun _ _ ledger _ after => after = ledger
  delete := fun _ _ ledger _ after => after = ledger

abbrev ledgerSemantics : Semantics Calls (Cell Ledger) := cellSemantics ledgerCloud ledgerSave

/-- What a commitment changes. -/
structure Commits (before after : Allocation) : Prop where
  pending : before.phase = .pending
  creating : after.phase = .creating
  raised : after.attempts = before.attempts + 1
  empty : after.retainsResources = false

/-- Finished rounds only. -/
inductive Rounds : Ledger → Prop where
  | none : Rounds []
  | round {ledger : Ledger} {thread : Nat} {before a : Allocation} {creation : Creation} {e : Option GoError}
      (rounds : Rounds ledger) (commits : Commits before a) (rejected : definitiveRejection creation e = true) :
      Rounds (ledger ++ [.committed thread before a, .called thread a, .returned thread a creation e,
        .reverted thread a])

/-- Finished rounds, then a round of `thread` that has committed to `a` and, given a
    result, has had its call answered with it. -/
def OpenRound (thread : Nat) (a : Allocation) (result : Option (Creation × Option GoError)) (ledger : Ledger) :
    Prop :=
  ∃ rounds before, Rounds rounds ∧ Commits before a ∧
    ledger = rounds ++ .committed thread before a ::
      match result with
      | none => []
      | some (creation, e) => [.called thread a, .returned thread a creation e]

/-- Phases in which a record may be created again, or never was. -/
def Phase.idle : Phase → Bool
  | .pending | .timedOut => true
  | _ => false

theorem OpenRound.last {thread : Nat} (opened : OpenRound thread a result ledger) :
    ledger.getLast?.map CreateEvent.thread = some thread := by
  obtain ⟨rounds, before, _, _, rfl⟩ := opened
  cases result <;> simp [CreateEvent.thread]

/-- The open round belongs to one thread. -/
theorem OpenRound.thread_unique {first second : Nat} {b : Allocation} {other : Option (Creation × Option GoError)}
    (opened : OpenRound first a result ledger) (also : OpenRound second b other ledger) : first = second := by
  have same := opened.last.symm.trans also.last
  simpa using same

/-! ## The invariant -/

structure LedgerInvariant (limit : Int) (w : Cell Ledger) : Prop where
  idle : w.record.phase.idle = true → Rounds w.ghost ∧ w.record.retainsResources = false
  shape : Rounds w.ghost ∨ ∃ thread a result, OpenRound thread a result w.ghost
  counted : (w.ghost.countP CreateEvent.isCommit : Int) = w.record.attempts
  bounded : w.record.attempts ≤ limit
  limited : w.record.maxAttempts = limit

/-- While a thread has the open round, nobody else extends the ledger or makes the
    record pending again. -/
def ledgerRely (limit : Int) : Rely (Cell Ledger) where
  invariant := LedgerInvariant limit
  rely := fun thread before after =>
    Snapshot after.record before.record ∧
      ∀ a result, OpenRound thread a result before.ghost → before.record.phase.idle = false →
        after.ghost = before.ghost ∧ after.record.phase.idle = false
  refl := fun _ w => ⟨.self w.record, fun _ _ _ busy => ⟨rfl, busy⟩⟩
  trans := by
    intro thread first second third earlier later
    refine ⟨later.1.trans earlier.1, fun a result opened busy => ?_⟩
    obtain ⟨same, still⟩ := earlier.2 a result opened busy
    obtain ⟨again, after⟩ := later.2 a result (same ▸ opened) still
    exact ⟨again.trans same, after⟩

/-- A write that neither commits nor takes a commitment back. -/
structure QuietWrite (a x : Allocation) : Prop where
  attempts : x.attempts = a.attempts
  maxAttempts : x.maxAttempts = a.maxAttempts
  phase : x.phase = a.phase ∨ (x.phase ≠ .creating ∧ x.phase ≠ .pending)
  idle : x.phase.idle = true → a.phase.idle = true ∧ x.resourceID = a.resourceID ∧ x.resources = a.resources
  busy : a.phase.idle = false → x.phase.idle = false

theorem retainsResources_false :
    a.retainsResources = false ↔ a.resourceID = "" ∧ a.resources = [] := by
  cases resources : a.resources <;> simp [Allocation.retainsResources, resources]

theorem Stores.retains_nothing {record x after : Allocation} {revision : Revision}
    (stores : Stores record x revision after) (empty : x.retainsResources = false) :
    after.retainsResources = false := by
  rw [retainsResources_false] at empty ⊢
  refine ⟨?_, stores.resources_empty empty.2⟩
  rw [stores.saved]
  exact empty.1

theorem QuietWrite.unchanged {x : Allocation} (attempts : x.attempts = a.attempts)
    (maxAttempts : x.maxAttempts = a.maxAttempts) (phase : x.phase = a.phase)
    (resourceID : x.resourceID = a.resourceID) (resources : x.resources = a.resources) : QuietWrite a x :=
  ⟨attempts, maxAttempts, .inl phase, fun idle => ⟨phase ▸ idle, resourceID, resources⟩, fun busy => phase ▸ busy⟩

theorem QuietWrite.cleanUp (a : Allocation) (condition : String) : QuietWrite a (a.cleanUp condition) := by
  refine ⟨rfl, rfl, .inr ⟨?_, ?_⟩, fun gone => Bool.noConfusion gone, fun _ => rfl⟩
  all_goals simp [Allocation.cleanUp]

theorem ledgerSave_quiet {x after : Allocation} {revision : Revision} (stores : Stores a x revision after)
    (quiet : QuietWrite a x) (thread : Nat) (ledger : Ledger) : ledgerSave thread a after ledger = ledger := by
  have phase : after.phase = x.phase := by rw [stores.saved]
  unfold ledgerSave
  rw [phase]
  obtain unchanged | ⟨notCreating, notPending⟩ := quiet.phase
  · rw [if_pos unchanged]
  · rw [if_neg notCreating, if_neg notPending, ite_self]

section Saves

variable {limit : Int} {w : Cell Ledger} {x after : Allocation} {revision : Revision} {thread : Nat}

theorem quiet_applied (kept : LedgerInvariant limit w) (stores : Stores w.record x revision after)
    (quiet : QuietWrite w.record x) :
    LedgerInvariant limit ⟨after, ledgerSave thread w.record after w.ghost⟩ ∧
      ∀ other, (ledgerRely limit).rely other w ⟨after, ledgerSave thread w.record after w.ghost⟩ := by
  have phase : after.phase = x.phase := by rw [stores.saved]
  have attempts : after.attempts = w.record.attempts := by rw [stores.saved]; exact quiet.attempts
  have maxAttempts : after.maxAttempts = w.record.maxAttempts := by rw [stores.saved]; exact quiet.maxAttempts
  rw [ledgerSave_quiet stores quiet]
  refine ⟨⟨?_, kept.shape, ?_, ?_, ?_⟩, fun other => ⟨.of_stores stores, fun a result _ busy => ⟨rfl, ?_⟩⟩⟩
  · intro idle
    obtain ⟨wasIdle, resourceID, resources⟩ := quiet.idle (phase ▸ idle)
    obtain ⟨rounds, empty⟩ := kept.idle wasIdle
    refine ⟨rounds, stores.retains_nothing ?_⟩
    rw [retainsResources_false] at empty ⊢
    exact ⟨resourceID.trans empty.1, resources.trans empty.2⟩
  · exact kept.counted.trans attempts.symm
  · exact attempts ▸ kept.bounded
  · exact maxAttempts.trans kept.limited
  · rw [phase]
    exact quiet.busy busy

/-- The save that opens a round. -/
theorem commit_applied (kept : LedgerInvariant limit w) (stores : Stores w.record (w.record.commit o) revision after)
    (pending : w.record.phase = .pending) (more : w.record.attempts < w.record.maxAttempts) :
    LedgerInvariant limit ⟨after, ledgerSave thread w.record after w.ghost⟩ ∧
      (∀ other, (ledgerRely limit).rely other w ⟨after, ledgerSave thread w.record after w.ghost⟩) ∧
      OpenRound thread after none (ledgerSave thread w.record after w.ghost) ∧ after.phase = .creating := by
  have creating : after.phase = .creating := by rw [stores.saved]; rfl
  have attempts : after.attempts = w.record.attempts + 1 := by rw [stores.saved]; rfl
  have maxAttempts : after.maxAttempts = w.record.maxAttempts := by rw [stores.saved]; rfl
  have idle : w.record.phase.idle = true := by rw [pending]; rfl
  obtain ⟨rounds, empty⟩ := kept.idle idle
  have entered : ledgerSave thread w.record after w.ghost = w.ghost ++ [.committed thread w.record after] := by
    simp [ledgerSave, creating, pending]
  rw [entered]
  have commits : Commits w.record after := ⟨pending, creating, attempts, stores.retains_nothing empty⟩
  have opened : OpenRound thread after none (w.ghost ++ [.committed thread w.record after]) :=
    ⟨w.ghost, w.record, rounds, commits, rfl⟩
  have limited := kept.limited
  refine ⟨⟨?_, .inr ⟨thread, after, none, opened⟩, ?_, ?_, ?_⟩, fun other => ⟨.of_stores stores, ?_⟩, opened, creating⟩
  · intro again
    rw [creating] at again
    cases again
  · rw [attempts, ← kept.counted, List.countP_append]
    rfl
  · dsimp only
    omega
  · exact maxAttempts.trans limited
  · intro a result _ busy
    rw [idle] at busy
    cases busy

/-- The save that takes a definitively rejected commitment back. -/
theorem revert_applied {e : Option GoError} (kept : LedgerInvariant limit w)
    (stores : Stores w.record x revision after) (opened : OpenRound thread w.record (some (creation, e)) w.ghost)
    (rejected : definitiveRejection creation e = true) (pending : x.phase = .pending)
    (attempts : x.attempts = w.record.attempts) (maxAttempts : x.maxAttempts = w.record.maxAttempts)
    (resourceID : x.resourceID = w.record.resourceID) (resources : x.resources = w.record.resources) :
    LedgerInvariant limit ⟨after, ledgerSave thread w.record after w.ghost⟩ ∧
      ∀ other, other ≠ thread →
        (ledgerRely limit).rely other w ⟨after, ledgerSave thread w.record after w.ghost⟩ := by
  have phase : after.phase = .pending := by rw [stores.saved]; exact pending
  have sameAttempts : after.attempts = w.record.attempts := by rw [stores.saved]; exact attempts
  have sameMax : after.maxAttempts = w.record.maxAttempts := by rw [stores.saved]; exact maxAttempts
  have others := opened
  obtain ⟨rounds, before, finished, commits, ledger⟩ := opened
  have entered : ledgerSave thread w.record after w.ghost =
      rounds ++ [.committed thread before w.record, .called thread w.record,
        .returned thread w.record creation e, .reverted thread w.record] := by
    simp [ledgerSave, phase, commits.creating, ledger]
  rw [entered]
  have empty : after.retainsResources = false := by
    have none := retainsResources_false.mp commits.empty
    exact stores.retains_nothing (retainsResources_false.mpr ⟨resourceID.trans none.1, resources.trans none.2⟩)
  have closed : Rounds (rounds ++ [.committed thread before w.record, .called thread w.record,
      .returned thread w.record creation e, .reverted thread w.record]) := finished.round commits rejected
  refine ⟨⟨fun _ => ⟨closed, empty⟩, .inl closed, ?_, ?_, ?_⟩, fun other different => ⟨.of_stores stores, ?_⟩⟩
  · have counted := kept.counted
    rw [ledger] at counted
    rw [sameAttempts, ← counted, List.countP_append, List.countP_append]
    rfl
  · exact sameAttempts ▸ kept.bounded
  · exact sameMax.trans kept.limited
  · intro a result also _
    -- a round has one owner, so no other thread relied on it
    exact absurd (also.thread_unique others) different

end Saves

/-! ## A thread running `Step` -/

/-- What a thread knows of the ledger from its view. -/
def View.ledgerHolds (thread : Nat) : View → Cell Ledger → Prop
  | .start, _ | .closed, _ => True
  | .loaded a, w | .deciding _ a _, w => Snapshot w.record a
  | .observed _ a _ _ _, w => Snapshot w.record a ∧ a.phase.idle = false
  | .committed _ _ a, w => Snapshot w.record a ∧ w.record.phase.idle = false ∧ OpenRound thread a none w.ghost
  | .created _ _ a creation e, w =>
    Snapshot w.record a ∧ w.record.phase.idle = false ∧ OpenRound thread a (some (creation, e)) w.ghost

theorem View.ledgerHolds_stable {limit : Int} {thread : Nat} (view : View) {before after : Cell Ledger}
    (holds : view.ledgerHolds thread before) (relied : (ledgerRely limit).rely thread before after) :
    view.ledgerHolds thread after := by
  obtain ⟨later, untouched⟩ := relied
  cases view with
  | start => trivial
  | closed => trivial
  | loaded a => exact later.trans holds
  | deciding now a cleared => exact later.trans holds
  | observed now a ob e cleared => exact ⟨later.trans holds.1, holds.2⟩
  | committed now o a =>
    obtain ⟨snapshot, busy, opened⟩ := holds
    obtain ⟨same, still⟩ := untouched a none opened busy
    exact ⟨later.trans snapshot, still, same ▸ opened⟩
  | created now o a creation e =>
    obtain ⟨snapshot, busy, opened⟩ := holds
    obtain ⟨same, still⟩ := untouched a _ opened busy
    exact ⟨later.trans snapshot, still, same ▸ opened⟩

theorem View.ledgerHolds_snapshot {thread : Nat} {w : Cell Ledger} (holds : view.ledgerHolds thread w)
    (held : view.held = some a) : Snapshot w.record a := by
  cases view <;> cases held
  · exact holds
  · exact holds
  · exact holds.1
  · exact holds.1
  · exact holds.1

theorem ObservedWrite.quiet {c : Controller} {now : Time} {x : Allocation} {ob : Observation} {e : Option GoError}
    {cleared : Bool} (write : ObservedWrite c now a ob e cleared x) (busy : a.phase.idle = false) :
    QuietWrite a x ∧ x.phase.idle = false := by
  have unchanged (phase : x.phase = a.phase) (attempts : x.attempts = a.attempts)
      (maxAttempts : x.maxAttempts = a.maxAttempts) : QuietWrite a x ∧ x.phase.idle = false := by
    have still : x.phase.idle = false := phase ▸ busy
    exact ⟨⟨attempts, maxAttempts, .inl phase, fun idle => by simp [still] at idle, fun _ => still⟩, still⟩
  cases write with
  | remember resources merged => exact unchanged rfl rfl rfl
  | undecided unknown => exact unchanged rfl rfl rfl
  | unconfirmed deleting err => exact unchanged rfl rfl rfl
  | release live absent deregistered =>
    exact ⟨⟨rfl, rfl, .inr ⟨nofun, nofun⟩, nofun, fun _ => rfl⟩, rfl⟩
  | found creating succeeded known present =>
    unfold Allocation.found Allocation.cleanUp
    dsimp only
    split <;> exact ⟨⟨rfl, rfl, .inr ⟨nofun, nofun⟩, nofun, fun _ => rfl⟩, rfl⟩

/-- What is owed after a thread's save was applied. -/
def SaveKeeps (limit : Int) (thread : Nat) (w : Cell Ledger) (after : Allocation) (next : View) : Prop :=
  LedgerInvariant limit ⟨after, ledgerSave thread w.record after w.ghost⟩ ∧
    (∀ other, other ≠ thread →
      (ledgerRely limit).rely other w ⟨after, ledgerSave thread w.record after w.ghost⟩) ∧
    next.ledgerHolds thread ⟨after, ledgerSave thread w.record after w.ghost⟩

section StepSaves

variable {c : Controller} {limit : Int} {thread : Nat} {w : Cell Ledger} {x after : Allocation}
  {revision : Revision} {now : Time} {e : Option GoError} {cleared : Bool}

theorem SaveKeeps.quiet {next : View} (kept : LedgerInvariant limit w) (stores : Stores w.record x revision after)
    (quiet : QuietWrite w.record x)
    (holds : next.ledgerHolds thread ⟨after, ledgerSave thread w.record after w.ghost⟩) :
    SaveKeeps limit thread w after next := by
  obtain ⟨keeps, others⟩ := quiet_applied kept stores quiet
  exact ⟨keeps, fun other _ => others other, holds⟩

theorem PendingWrite.keeps (write : PendingWrite c now w.record cleared x) (kept : LedgerInvariant limit w)
    (stores : Stores w.record x revision after) (phase : w.record.phase = .pending) :
    SaveKeeps limit thread w after (View.next (.deciding now w.record cleared) (.save x revision) (.ok after)) := by
  cases write with
  | timeOut givesUp deregistered =>
    refine .quiet kept stores ⟨rfl, rfl, .inr ⟨nofun, nofun⟩, fun _ => ⟨by rw [phase]; rfl, rfl, rfl⟩, ?_⟩ ?_
    · intro busy
      rw [phase] at busy
      cases busy
    · simp [View.next, Allocation.timeOut, View.ledgerHolds, Snapshot.self]
  | refused waits e refused =>
    refine .quiet kept stores (.unchanged rfl rfl rfl rfl rfl) ?_
    simp [View.next, phase, View.ledgerHolds, Snapshot.self]
  | commit waits o chosen =>
    have more : w.record.attempts < w.record.maxAttempts := by
      simp only [Allocation.givesUp, Bool.or_eq_false_iff, decide_eq_false_iff_not] at waits
      omega
    obtain ⟨keeps, others, opened, creating⟩ := commit_applied kept stores phase more
    refine ⟨keeps, fun other _ => others other, ?_⟩
    simp only [View.next, phase, Allocation.commit, and_self, if_true, View.ledgerHolds]
    exact ⟨.self after, by rw [creating]; rfl, opened⟩

/-- What is saved of a create call that was not rejected. -/
theorem CreatedWrite.quiet (write : CreatedWrite now o a creation e x)
    (ambiguous : definitiveRejection creation e = false) (busy : a.phase.idle = false) : QuietWrite a x := by
  have sameQuiet (idle : a.phase.idle = true) : False := Bool.noConfusion (busy.symm.trans idle)
  cases write with
  | preparationFailed rejected empty => simp [definitiveRejection, rejected, empty] at ambiguous
  | capacityRejected rejected empty => simp [definitiveRejection, rejected, empty] at ambiguous
  | unmerged _ err failed => exact ⟨rfl, rfl, .inl rfl, fun idle => (sameQuiet idle).elim, fun _ => busy⟩
  | uncertain _ unknown resources changed merged =>
    exact ⟨rfl, rfl, .inl rfl, fun idle => (sameQuiet idle).elim, fun _ => busy⟩
  | vmCreated named succeeded resources changed merged =>
    refine ⟨rfl, rfl, .inr ⟨?_, ?_⟩, fun gone => Bool.noConfusion gone, fun _ => rfl⟩
    all_goals simp [Allocation.vmCreated]

theorem CreatedWrite.keeps (write : CreatedWrite now o w.record creation e x) (kept : LedgerInvariant limit w)
    (stores : Stores w.record x revision after) (busy : w.record.phase.idle = false)
    (opened : OpenRound thread w.record (some (creation, e)) w.ghost) :
    SaveKeeps limit thread w after .closed := by
  cases definitive : definitiveRejection creation e with
  | false => exact .quiet kept stores (write.quiet definitive busy) trivial
  | true =>
    cases write with
    | preparationFailed rejected empty =>
      obtain ⟨keeps, others⟩ := revert_applied kept stores opened definitive rfl rfl rfl rfl rfl
      exact ⟨keeps, others, trivial⟩
    | capacityRejected rejected empty =>
      obtain ⟨keeps, others⟩ := revert_applied kept stores opened definitive rfl rfl rfl rfl rfl
      exact ⟨keeps, others, trivial⟩
    | unmerged ambiguous err failed => cases definitive.symm.trans ambiguous
    | uncertain ambiguous unknown resources changed merged => cases definitive.symm.trans ambiguous
    | vmCreated named succeeded resources changed merged =>
      subst succeeded
      simp [definitiveRejection, errorIs] at definitive

/-- Whatever a `Step` thread saves, from whichever view. -/
theorem View.writes_keeps {held : Allocation} (kept : LedgerInvariant limit w) (holds : view.ledgerHolds thread w)
    (writes : view.writes c x) (holding : view.held = some held) (stores : Stores w.record x held.revision after) :
    SaveKeeps limit thread w after (view.next (.save x held.revision) (.ok after)) := by
  have current : held = w.record := (View.ledgerHolds_snapshot holds holding).applied stores
  subst current
  cases writes with
  | pending phase retains write =>
    cases holding
    exact write.keeps kept stores phase
  | fence phase =>
    cases holding
    refine .quiet kept stores (.unchanged rfl rfl rfl rfl rfl) ?_
    simp [View.next, phase, View.ledgerHolds, Snapshot.self]
  | cleanUp phase overdue =>
    cases holding
    refine .quiet kept stores (.cleanUp _ _) ?_
    simp [View.next, phase, View.ledgerHolds, Snapshot.self]
  | created write =>
    cases holding
    exact write.keeps kept stores holds.2.1 holds.2.2
  | observed write =>
    cases holding
    obtain ⟨quiet, still⟩ := write.quiet holds.2
    refine .quiet kept stores quiet ⟨.self after, ?_⟩
    rw [stores.saved]
    exact still

end StepSaves

/-! ## Every request of a thread -/

section Requests

variable {c : Controller} {limit : Int} {thread : Nat} {w after : Cell Ledger}

/-- A create call answers the open round of its caller. -/
theorem create_called {e : Option GoError} (kept : LedgerInvariant limit w) (busy : w.record.phase.idle = false)
    (opened : OpenRound thread a none w.ghost)
    (called : after = ⟨w.record, w.ghost ++ [.called thread a, .returned thread a creation e]⟩) :
    LedgerInvariant limit after ∧ (∀ other, other ≠ thread → (ledgerRely limit).rely other w after) ∧
      OpenRound thread a (some (creation, e)) after.ghost := by
  subst called
  have answered : OpenRound thread a (some (creation, e))
      (w.ghost ++ [.called thread a, .returned thread a creation e]) := by
    obtain ⟨rounds, before, finished, commits, ledger⟩ := id opened
    exact ⟨rounds, before, finished, commits, by simp [ledger]⟩
  refine ⟨⟨?_, .inr ⟨thread, a, _, answered⟩, ?_, kept.bounded, kept.limited⟩, ?_, answered⟩
  · intro idle
    exact Bool.noConfusion (busy.symm.trans idle)
  · rw [← kept.counted, List.countP_append]
    rfl
  · intro other different
    exact ⟨.self w.record, fun b result also _ => absurd (also.thread_unique opened) different⟩

theorem step_kept {next : View} (kept : LedgerInvariant limit w) (holds : view.ledgerHolds thread w)
    (move : StepMove (ledgerCloud.traces ledgerSave) c thread w view after next) :
    LedgerInvariant limit after ∧ (∀ other, other ≠ thread → (ledgerRely limit).rely other w after) ∧
      next.ledgerHolds thread after := by
  have unchanged {next : View} (holds : next.ledgerHolds thread w) :
      LedgerInvariant limit w ∧ (∀ other, other ≠ thread → (ledgerRely limit).rely other w w) ∧
        next.ledgerHolds thread w :=
    ⟨kept, fun other _ => (ledgerRely limit).refl other w, holds⟩
  cases move with
  | failed => exact unchanged trivial
  | loaded => exact unchanged (.self w.record)
  | clock shows =>
    cases shows
    exact unchanged holds
  | cleared deregister =>
    cases deregister
    exact unchanged holds
  | clearedAbsent absent deregister =>
    cases deregister
    exact unchanged holds
  | uncleared deregister =>
    cases deregister
    exact unchanged trivial
  | saved writes holding stores => exact View.writes_keeps kept holds writes holding stores
  | savedUnheard writes holding stores =>
    obtain ⟨keeps, others, _⟩ := View.writes_keeps kept holds writes holding stores
    exact ⟨keeps, others, trivial⟩
  | created create =>
    obtain ⟨snapshot, busy, opened⟩ := holds
    cases create
    obtain ⟨keeps, others, answered⟩ := create_called kept busy opened rfl
    exact ⟨keeps, others, snapshot, busy, answered⟩
  | @observed now a ob e ghost phase observe =>
    cases observe
    have busy : a.phase.idle = false := by
      obtain phase | phase | phase := phase <;> rw [phase] <;> rfl
    exact unchanged ⟨holds, busy⟩
  | deleted delete =>
    cases delete
    exact unchanged trivial
  | undeleted delete =>
    cases delete
    exact unchanged holds

theorem touched_quiet {x : Allocation} (touched : Touched a x) : QuietWrite a x := by
  rw [touched]
  exact ⟨rfl, rfl, .inl rfl, fun idle => ⟨idle, rfl, rfl⟩, fun busy => busy⟩

theorem writer_kept (kept : LedgerInvariant limit w)
    (move : WriterMove (ledgerCloud.traces ledgerSave) Edit thread w after) :
    LedgerInvariant limit after ∧ ∀ other, (ledgerRely limit).rely other w after := by
  cases move with
  | idle => exact ⟨kept, fun other => (ledgerRely limit).refl other w⟩
  | clock shows =>
    cases shows
    exact ⟨kept, fun other => (ledgerRely limit).refl other w⟩
  | edited edit stores => exact quiet_applied kept stores (touched_quiet edit.touched)

end Requests

/-! ## What the shape of the ledger says -/

theorem prefix_concat {earlier : Ledger} {event last : CreateEvent} :
    earlier ++ [event] <+: ledger ++ [last] ↔ earlier ++ [event] <+: ledger ∨ (earlier = ledger ∧ event = last) := by
  rw [List.prefix_concat_iff]
  constructor
  · rintro (same | inside)
    · exact .inr (by simpa using List.append_inj' same rfl)
    · exact .inl inside
  · rintro (inside | ⟨rfl, rfl⟩)
    · exact .inr inside
    · exact .inl rfl

/-- Before a call stand finished rounds and the commitment it was made on. -/
def OwnCommitment (ledger : Ledger) : Prop :=
  ∀ earlier thread a, earlier ++ [.called thread a] <+: ledger →
    ∃ rounds before, Rounds rounds ∧ Commits before a ∧ earlier = rounds ++ [.committed thread before a]

theorem Rounds.ownCommitment (rounds : Rounds ledger) : OwnCommitment ledger := by
  induction rounds with
  | none =>
    intro earlier thread a impossible
    simp at impossible
  | @round ledger owner before b creation e finished commits rejected ih =>
    intro earlier thread a inside
    have split : ledger ++ [.committed owner before b, .called owner b, .returned owner b creation e,
        .reverted owner b] = (((ledger ++ [.committed owner before b]) ++ [.called owner b]) ++
          [.returned owner b creation e]) ++ [.reverted owner b] := by simp
    rw [split] at inside
    simp only [prefix_concat, reduceCtorEq, and_false, or_false, CreateEvent.called.injEq] at inside
    obtain inside | ⟨rfl, rfl, rfl⟩ := inside
    · exact ih earlier thread a inside
    · exact ⟨ledger, before, finished, commits, rfl⟩

theorem OpenRound.ownCommitment {owner : Nat} {b : Allocation} (opened : OpenRound owner b result ledger) :
    OwnCommitment ledger := by
  obtain ⟨rounds, before, finished, commits, rfl⟩ := opened
  intro earlier thread a inside
  cases result with
  | none =>
    rw [prefix_concat] at inside
    obtain inside | ⟨_, impossible⟩ := inside
    · exact finished.ownCommitment earlier thread a inside
    · cases impossible
  | some result =>
    have split : rounds ++ .committed owner before b :: [.called owner b, .returned owner b result.1 result.2] =
        ((rounds ++ [.committed owner before b]) ++ [.called owner b]) ++ [.returned owner b result.1 result.2] := by
      simp
    rw [split] at inside
    simp only [prefix_concat, reduceCtorEq, and_false, or_false, CreateEvent.called.injEq] at inside
    obtain inside | ⟨rfl, rfl, rfl⟩ := inside
    · exact finished.ownCommitment earlier thread a inside
    · exact ⟨rounds, before, finished, commits, rfl⟩

/-- Every call of the ledger was definitively rejected, and its record saved back. -/
def AllRejected (ledger : Ledger) : Prop :=
  (∀ thread a, .called thread a ∈ ledger → (∃ creation e, .returned thread a creation e ∈ ledger) ∧
      .reverted thread a ∈ ledger) ∧
    ∀ thread a creation e, .returned thread a creation e ∈ ledger → definitiveRejection creation e = true

theorem Rounds.allRejected (rounds : Rounds ledger) : AllRejected ledger := by
  induction rounds with
  | none => simp [AllRejected]
  | @round ledger owner before b creation e finished commits rejected ih =>
    constructor
    · intro thread a called
      simp only [List.mem_append, List.mem_cons, List.not_mem_nil, or_false, reduceCtorEq, false_or,
        CreateEvent.called.injEq] at called
      obtain earlier | ⟨rfl, rfl⟩ := called
      · obtain ⟨⟨creation, e, returned⟩, reverted⟩ := ih.1 thread a earlier
        exact ⟨⟨creation, e, List.mem_append_left _ returned⟩, List.mem_append_left _ reverted⟩
      · exact ⟨⟨creation, e, by simp⟩, by simp⟩
    · intro thread a result err returned
      simp only [List.mem_append, List.mem_cons, List.not_mem_nil, or_false, reduceCtorEq, false_or,
        CreateEvent.returned.injEq] at returned
      obtain earlier | ⟨rfl, rfl, rfl, rfl⟩ := returned
      · exact ih.2 thread a result err earlier
      · exact rejected

theorem Rounds.calls_eq_commits (rounds : Rounds ledger) :
    ledger.countP CreateEvent.isCall = ledger.countP CreateEvent.isCommit := by
  induction rounds with
  | none => rfl
  | round _ _ _ ih =>
    rw [List.countP_append, List.countP_append, ih]
    rfl

theorem OpenRound.calls_le_commits {thread : Nat} (opened : OpenRound thread a result ledger) :
    ledger.countP CreateEvent.isCall ≤ ledger.countP CreateEvent.isCommit := by
  obtain ⟨rounds, before, finished, _, rfl⟩ := opened
  rw [List.countP_append, List.countP_append, finished.calls_eq_commits]
  cases result <;> simp [List.countP_cons, CreateEvent.isCall, CreateEvent.isCommit]

/-! ## Whole runs -/

/-- A record no one has stepped yet. -/
structure FreshCell (limit : Int) (w : Cell Ledger) : Prop where
  ledger : w.ghost = []
  pending : w.record.phase = .pending
  attempts : w.record.attempts = 0
  empty : w.record.retainsResources = false
  limited : w.record.maxAttempts = limit
  positive : 1 ≤ limit

theorem FreshCell.invariant {limit : Int} {w : Cell Ledger} (fresh : FreshCell limit w) :
    LedgerInvariant limit w := by
  have positive := fresh.positive
  refine ⟨fun _ => ⟨fresh.ledger ▸ .none, fresh.empty⟩, .inl (fresh.ledger ▸ .none), ?_, ?_, fresh.limited⟩
  · rw [fresh.ledger, fresh.attempts]
    rfl
  · rw [fresh.attempts]
    omega

/-- Any controller stepping the allocation, and any other writer of its record. -/
def ledgerStarts (id : String) (_ : Nat) (program : Program Calls (Option GoError)) : Prop :=
  (∃ c : Controller, program = c.step id) ∨ Writer id program

theorem ledger_kept {id : String} {limit : Int} {system : System Calls (Cell Ledger) (Option GoError)}
    (reachable : System.Reachable ledgerSemantics (fun _ _ => False) (ledgerStarts id) System.concurrent
      (FreshCell limit) system) :
    LedgerInvariant limit system.world := by
  have fresh (thread : Nat) (w : Cell Ledger) (program : Program Calls (Option GoError))
      (starts : ledgerStarts id thread program) :
      (ledgerRely limit).Safe ledgerSemantics thread program (fun _ _ => True) w := by
    obtain ⟨c, rfl⟩ | writer := starts
    · refine Rely.safe_of_follows (stepProtocol c) (View.ledgerHolds thread) ?_ ?_ (step_follows id) trivial
        fun _ _ _ _ _ => trivial
      · intro view before after _ holds relied
        exact view.ledgerHolds_stable holds relied
      · intro view w request reply after kept holds allowed executed
        obtain ⟨answered, move⟩ := step_move allowed (cell_traces executed)
        obtain ⟨keeps, others, next⟩ := step_kept kept holds move
        exact ⟨keeps, others, answered, next⟩
    · exact writer_safe (fun _ _ relied => relied.1) (fun _ _ _ _ executed => cell_traces executed)
        (fun _ _ kept move => (writer_kept kept move).imp_right fun others other _ => others other) (writer_follows writer)
  have safe : Rely.SystemSafe (ledgerRely limit) ledgerSemantics (fun _ _ _ => True) system :=
    Rely.reachable_safe (fun _ fresh => fresh.invariant) (fun _ _ _ impossible => impossible.elim)
      (fun thread w program _ starts => fresh thread w program starts) reachable
  exact safe.invariant

/-- No duplicate create.  A call of the ledger is preceded by its own commitment,
    which raised the attempts of a pending record, and before that commitment by
    finished rounds only; there are at most as many calls as attempts; and a record
    that is pending or timed out has named nothing in the cloud. -/
theorem no_duplicate_create {id : String} {limit : Int} {system : System Calls (Cell Ledger) (Option GoError)}
    (reachable : System.Reachable ledgerSemantics (fun _ _ => False) (ledgerStarts id) System.concurrent
      (FreshCell limit) system) :
    (∀ earlier thread a, earlier ++ [.called thread a] <+: system.world.ghost →
      ∃ rounds before, earlier = rounds ++ [.committed thread before a] ∧ Commits before a ∧ AllRejected rounds) ∧
    (system.world.ghost.countP CreateEvent.isCall : Int) ≤ limit ∧
    (system.world.record.phase = .pending ∨ system.world.record.phase = .timedOut →
      system.world.record.resourceID = "" ∧ system.world.record.resources = [] ∧
        system.world.record.retainsResources = false ∧ AllRejected system.world.ghost) := by
  have kept := ledger_kept reachable
  refine ⟨?_, ?_, ?_⟩
  · intro earlier thread a inside
    have own : OwnCommitment system.world.ghost := by
      obtain rounds | ⟨_, _, _, opened⟩ := kept.shape
      · exact rounds.ownCommitment
      · exact opened.ownCommitment
    obtain ⟨rounds, before, finished, commits, same⟩ := own earlier thread a inside
    exact ⟨rounds, before, same, commits, finished.allRejected⟩
  · have counted : system.world.ghost.countP CreateEvent.isCall ≤ system.world.ghost.countP CreateEvent.isCommit := by
      obtain rounds | ⟨_, _, _, opened⟩ := kept.shape
      · exact rounds.calls_eq_commits.le
      · exact opened.calls_le_commits
    -- each call has a commitment of its own, and the record counts those
    have attempts := kept.counted
    have bounded := kept.bounded
    omega
  · intro phase
    have idle : system.world.record.phase.idle = true := by
      obtain phase | phase := phase <;> rw [phase] <;> rfl
    obtain ⟨rounds, empty⟩ := kept.idle idle
    obtain ⟨resourceID, resources⟩ := retainsResources_false.mp empty
    exact ⟨resourceID, resources, empty, rounds.allRejected⟩

/-- A provider that rejects every create for lack of capacity. -/
def rejectingProvider : CloudOracle Ledger where
  create := fun thread a ledger =>
    (({}, some errCapacity), ledger ++ [.called thread a, .returned thread a {} (some errCapacity)])
  observe := fun _ _ ledger => (({}, none), ledger)
  delete := fun _ _ ledger => (none, ledger)

/-- One `Step` of the small record: it is committed, rejected and saved back. -/
def rejectedOnce : Cell Ledger :=
  System.playAll (cellOracle 2 rejectingProvider ledgerSave) [(0, 10, smallController.step "runner-1")]
    ⟨smallRecord, []⟩

theorem rejectedOnce_reachable :
    System.Reachable ledgerSemantics (fun _ _ => False) (ledgerStarts "runner-1") System.concurrent (FreshCell 3)
      ⟨rejectedOnce, fun _ => none⟩ := by
  have honest : rejectingProvider.Honest ledgerCloud :=
    ⟨fun _ _ _ => rfl, fun _ _ _ => rfl, fun _ _ _ => rfl, fun _ _ _ => rfl⟩
  refine System.Reachable.playAll (fun _ => cellOracle_honest honest) _ ?_ (.initial _ ?_)
  · intro turn member
    obtain rfl := List.mem_singleton.mp member
    exact .inl ⟨smallController, rfl⟩
  · exact ⟨rfl, rfl, rfl, rfl, rfl, by decide⟩

theorem no_duplicate_create_rejectedOnce :
    rejectedOnce.record.phase = .pending ∧ rejectedOnce.ghost.countP CreateEvent.isCall = 1 ∧
      AllRejected rejectedOnce.ghost :=
  ⟨by decide, by decide, ((no_duplicate_create rejectedOnce_reachable).2.2 (.inl (by decide))).2.2.2⟩

end RunnerScout.Lifecycle
