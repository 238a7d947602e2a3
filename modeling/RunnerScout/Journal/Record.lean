import RunnerScout.Operator.Jobs
import RunnerScout.Operator.Retry

/-! # The journal of one allocation

Everything that happens to one allocation, the latest first: the instants its
writers read, what its providers answered, and every save that was applied.  Any
number of controllers and of the other writers run at once, each one interrupted
between any two of its calls.

A journal is `Kept` when every save in it has its reason.  That the journal of
every run is (`run_kept`) is the only result here that is about
threads; everything that follows from it is an induction over the journal.
-/

namespace RunnerScout.Journal

open Interaction Lifecycle Placement Operator

/-! ## Events -/

inductive Event where
  | shown (thread : Nat) (now : Time)
  | created (thread : Nat) (a : Allocation) (creation : Creation) (e : Option GoError)
  | observed (thread : Nat) (a : Allocation) (ob : Observation) (e : Option GoError)
  /-- A save that was applied, whatever its caller was told. -/
  | saved (thread : Nat) (before after : Allocation)

abbrev Log := List Event

/-- The clock never shows the zero of `time.Time`; the providers answer anything. -/
def traces : Traces Log where
  create := fun thread a log reply after => after = .created thread a reply.1 reply.2 :: log
  observe := fun thread a log reply after => after = .observed thread a reply.1 reply.2 :: log
  delete := fun _ _ log _ after => after = log
  now := fun thread log now after => now ≠ 0 ∧ after = .shown thread now :: log
  deregister := fun _ _ _ log _ after => after = log
  save := fun thread before after log => .saved thread before after :: log

def Event.shownTo (thread : Nat) : Event → Option Time
  | .shown reader now => if reader = thread then some now else none
  | _ => none

/-- The last instant a thread read. -/
def lastShown (thread : Nat) (log : Log) : Option Time := log.findSome? (Event.shownTo thread)

@[simp] theorem lastShown_shown (thread : Nat) (now : Time) (log : Log) :
    lastShown thread (.shown thread now :: log) = some now := by
  simp [lastShown, Event.shownTo]

@[simp] theorem lastShown_other {thread other : Nat} (different : other ≠ thread) (now : Time) (log : Log) :
    lastShown other (.shown thread now :: log) = lastShown other log := by
  simp [lastShown, Event.shownTo, Ne.symm different]

@[simp] theorem lastShown_created (thread other : Nat) (a : Allocation) (creation : Creation) (e : Option GoError)
    (log : Log) : lastShown other (.created thread a creation e :: log) = lastShown other log := rfl

@[simp] theorem lastShown_observed (thread other : Nat) (a : Allocation) (ob : Observation) (e : Option GoError)
    (log : Log) : lastShown other (.observed thread a ob e :: log) = lastShown other log := rfl

@[simp] theorem lastShown_saved (thread other : Nat) (before after : Allocation) (log : Log) :
    lastShown other (.saved thread before after :: log) = lastShown other log := rfl

/-! ## The writers -/

/-- What the retry pass makes of an interrupted record. -/
inductive Processed (a : Allocation) : Allocation → Prop where
  | marked : Processed a { a with retryProcessed := true }
  | left : Processed a a

/-- The save of the retry pass: it lists the record, decides whether the interruption
    is settled, and saves the record at the revision it was listed at. -/
def processRecord (id : String) (settled : Bool) : Program Calls (Option GoError) := do
  match ← Program.ask (S := Calls) (.load id) with
  | .error e => return some e
  | .ok a =>
    if interrupted a then save (if settled then { a with retryProcessed := true } else a) else return none

/-- Every way a program writes the record of an allocation. -/
inductive Worker (id : String) : Program Calls (Option GoError) → Prop where
  | step (c : Controller) : Worker id (c.step id)
  | writer {program : Program Calls (Option GoError)} (writer : Writer id program) : Worker id program
  | retry (settled : Bool) : Worker id (processRecord id settled)

theorem processRecord_follows (id : String) (settled : Bool) :
    (processRecord id settled).Follows (editProtocol Processed) .start fun _ _ => True := by
  refine .request rfl fun reply _ => ?_
  cases reply with
  | error e => exact .done trivial
  | ok a =>
    dsimp only
    split
    · cases settled with
      | true => exact edit_follows .marked rfl
      | false => exact edit_follows .left rfl
    · exact .done trivial

/-! ## Reasons -/

/-- The events a view of `Step` rests on. -/
def Backed (log : Log) (thread : Nat) : View → Prop
  | .start | .loaded _ | .closed => True
  | .deciding now _ _ => lastShown thread log = some now
  | .committed now o a => lastShown thread log = some now ∧ a.phase = .creating ∧ a.offering = o
  | .created now o a creation e =>
    lastShown thread log = some now ∧ a.phase = .creating ∧ a.offering = o ∧ .created thread a creation e ∈ log
  | .observed now a ob e _ => lastShown thread log = some now ∧ (a.phase.terminal = true → ob.absent e)

/-- Why a save was applied: `Step` decided on it, or another writer edited the record. -/
inductive Justified (log : Log) (thread : Nat) (before after : Allocation) : Prop where
  | step {c : Controller} {view : View} {x : Allocation} (writes : view.writes c x) (held : view.held = some before)
      (backed : Backed log thread view) (stores : Stores before x before.revision after)
  | edited {x : Allocation} (edit : Edit before x) (stores : Stores before x before.revision after)
  | processed {x : Allocation} (processed : Processed before x) (stores : Stores before x before.revision after)

/-- A list of events in which every save is made over the latest record, and for a reason. -/
inductive Kept (first : Allocation) : Log → Allocation → Prop where
  | opened : Kept first [] first
  | shown {log record} (journal : Kept first log record) (thread : Nat) (now : Time) (genuine : now ≠ 0) :
      Kept first (.shown thread now :: log) record
  | created {log record} (journal : Kept first log record) (thread : Nat) (a : Allocation) (creation : Creation)
      (e : Option GoError) : Kept first (.created thread a creation e :: log) record
  | observed {log record} (journal : Kept first log record) (thread : Nat) (a : Allocation) (ob : Observation)
      (e : Option GoError) : Kept first (.observed thread a ob e :: log) record
  | saved {log record after} (journal : Kept first log record) (thread : Nat)
      (reason : Justified log thread record after) : Kept first (.saved thread record after :: log) after

/-- The instants in a journal are genuine. -/
theorem Kept.shown_ne_zero {first record : Allocation} {log : Log} (journal : Kept first log record)
    {thread : Nat} {now : Time} (shown : lastShown thread log = some now) : now ≠ 0 := by
  induction journal with
  | opened => simp [lastShown] at shown
  | shown journal reader instant genuine ih =>
    by_cases same : thread = reader
    · subst same
      rw [lastShown_shown] at shown
      cases shown
      exact genuine
    · rw [lastShown_other same] at shown
      exact ih shown
  | created journal reader a creation e ih => exact ih (by simpa using shown)
  | observed journal reader a ob e ih => exact ih (by simpa using shown)
  | saved journal reader reason ih => exact ih (by simpa using shown)

/-! ## What a thread knows -/

/-- Others only add events, none of them on behalf of this thread. -/
def rely (first : Allocation) : Rely (Cell Log) where
  invariant := fun w => Kept first w.ghost w.record
  rely := fun thread before after =>
    Snapshot after.record before.record ∧ before.ghost ⊆ after.ghost ∧
      lastShown thread after.ghost = lastShown thread before.ghost
  refl := fun _ w => ⟨.self w.record, fun _ member => member, rfl⟩
  trans := fun _ _ _ _ earlier later =>
    ⟨later.1.trans earlier.1, fun _ member => later.2.1 (earlier.2.1 member), later.2.2.trans earlier.2.2⟩

def Knows (thread : Nat) (view : View) (w : Cell Log) : Prop :=
  (∀ a, view.held = some a → Snapshot w.record a) ∧ Backed w.ghost thread view

theorem Knows.stable {first : Allocation} {thread : Nat} {view : View} {before after : Cell Log}
    (knows : Knows thread view before) (relied : (rely first).rely thread before after) : Knows thread view after := by
  obtain ⟨later, grows, same⟩ := relied
  refine ⟨fun a held => later.trans (knows.1 a held), ?_⟩
  have backed := knows.2
  cases view with
  | start | loaded a | closed => trivial
  | deciding now a cleared => exact same.trans backed
  | observed now a ob e cleared => exact ⟨same.trans backed.1, backed.2⟩
  | committed now o a => exact ⟨same.trans backed.1, backed.2⟩
  | created now o a creation e =>
    obtain ⟨shown, phase, chosen, answered⟩ := backed
    exact ⟨same.trans shown, phase, chosen, grows answered⟩

section Requests

variable {first : Allocation} {thread : Nat} {w after : Cell Log}

/-- An event that leaves the record alone. -/
theorem noted {event : Event} (kept : Kept first (event :: w.ghost) w.record)
    (other : ∀ reader, reader ≠ thread → lastShown reader (event :: w.ghost) = lastShown reader w.ghost) :
    (rely first).invariant ⟨w.record, event :: w.ghost⟩ ∧
      ∀ reader, reader ≠ thread → (rely first).rely reader w ⟨w.record, event :: w.ghost⟩ :=
  ⟨kept, fun reader different => ⟨.self w.record, List.subset_cons_self _ _, other reader different⟩⟩

/-- A save over the latest record, with its reason. -/
theorem saved_kept {a x : Allocation} (kept : Kept first w.ghost w.record) (stores : Stores w.record x w.record.revision a)
    (reason : Justified w.ghost thread w.record a) :
    (rely first).invariant ⟨a, .saved thread w.record a :: w.ghost⟩ ∧
      ∀ reader, reader ≠ thread → (rely first).rely reader w ⟨a, .saved thread w.record a :: w.ghost⟩ :=
  ⟨kept.saved thread reason, fun reader _ => ⟨.of_stores stores, List.subset_cons_self _ _, by simp⟩⟩

/-- The view after a save rests on the same events. -/
theorem backed_next {c : Controller} {view : View} {x held stored : Allocation} (writes : view.writes c x)
    (saved : Saved x stored) (backed : Backed w.ghost thread view) :
    Backed (.saved thread held stored :: w.ghost) thread (view.next (.save x held.revision) (.ok stored)) := by
  cases writes with
  | @pending now a cleared x phase retains write =>
    unfold View.next
    dsimp only
    split
    · rename_i commits
      refine ⟨backed, ?_, ?_⟩
      · rw [saved]
        exact commits.2
      · rw [saved]
    · simpa [Backed] using backed
  | fence phase => simpa [View.next, phase, Backed] using backed
  | cleanUp phase overdue => simpa [View.next, phase, Backed] using backed
  | created write => trivial
  | observed write =>
    refine ⟨backed.1, fun terminal => ?_⟩
    rw [saved] at terminal
    cases write with
    | remember resources merged => exact backed.2 terminal
    | undecided unknown => exact backed.2 terminal
    | release live absent deregistered => exact absent
    | found creating succeeded known present =>
      unfold Allocation.found Allocation.cleanUp at terminal
      dsimp only at terminal
      split at terminal <;> cases terminal
    | unconfirmed deleting err => exact backed.2 terminal

theorem held_next {c : Controller} {view : View} {x stored a : Allocation} {revision : Revision}
    (writes : view.writes c x) (still : (view.next (.save x revision) (.ok stored)).held = some a) : a = stored := by
  cases writes with
  | pending phase retains write =>
    unfold View.next at still
    dsimp only at still
    split at still <;> cases still <;> rfl
  | fence phase =>
    simp only [View.next, phase, reduceCtorEq, false_and, if_false, View.held] at still
    exact (Option.some.inj still).symm
  | cleanUp phase overdue =>
    simp only [View.next, phase, reduceCtorEq, false_and, if_false, View.held] at still
    exact (Option.some.inj still).symm
  | created write => cases still
  | observed write =>
    cases still
    rfl

theorem step_journal {c : Controller} {view next : View} (kept : Kept first w.ghost w.record)
    (knows : Knows thread view w) (move : StepMove traces c thread w view after next) :
    (rely first).invariant after ∧ (∀ other, other ≠ thread → (rely first).rely other w after) ∧
      Knows thread next after := by
  have unchanged {view : View} (knows : Knows thread view w) :
      (rely first).invariant w ∧ (∀ other, other ≠ thread → (rely first).rely other w w) ∧ Knows thread view w :=
    ⟨kept, fun other _ => (rely first).refl other w, knows⟩
  have closed (w : Cell Log) : Knows thread .closed w := ⟨fun a held => (by cases held), trivial⟩
  obtain ⟨snapshots, backed⟩ := knows
  cases move with
  | failed => exact unchanged (closed w)
  | loaded => exact unchanged ⟨fun a held => by cases held; exact .self _, trivial⟩
  | clock shows =>
    obtain ⟨genuine, rfl⟩ := shows
    obtain ⟨keeps, others⟩ := noted (kept.shown thread _ genuine) fun reader different => lastShown_other different _ _
    exact ⟨keeps, others, snapshots, lastShown_shown ..⟩
  | cleared deregister =>
    cases deregister
    exact unchanged ⟨snapshots, backed⟩
  | clearedAbsent absent deregister =>
    cases deregister
    exact unchanged ⟨snapshots, backed⟩
  | uncleared deregister =>
    cases deregister
    exact unchanged (closed w)
  | @saved view x held a writes holding stores =>
    obtain rfl : held = w.record := (snapshots held holding).applied stores
    obtain ⟨keeps, others⟩ := saved_kept kept stores (.step writes holding backed stores)
    refine ⟨keeps, others, fun b still => ?_, backed_next writes stores.saved backed⟩
    exact held_next writes still ▸ .self a
  | @savedUnheard view x held a writes holding stores =>
    obtain rfl : held = w.record := (snapshots held holding).applied stores
    obtain ⟨keeps, others⟩ := saved_kept kept stores (.step writes holding backed stores)
    exact ⟨keeps, others, closed _⟩
  | created create =>
    cases create
    obtain ⟨keeps, others⟩ := noted (kept.created thread _ _ _) fun reader _ => lastShown_created ..
    obtain ⟨shown, phase, chosen⟩ := backed
    exact ⟨keeps, others, snapshots, by simpa using shown, phase, chosen, List.mem_cons_self⟩
  | observed phase observe =>
    cases observe
    obtain ⟨keeps, others⟩ := noted (kept.observed thread _ _ _) fun reader _ => lastShown_observed ..
    refine ⟨keeps, others, snapshots, by simpa [Backed] using backed, fun terminal => ?_⟩
    obtain phase | phase | phase := phase <;> rw [phase] at terminal <;> cases terminal
  | deleted delete =>
    cases delete
    exact unchanged (closed w)
  | undeleted delete =>
    cases delete
    exact unchanged ⟨snapshots, backed⟩

theorem writer_journal {edits : Allocation → Allocation → Prop} (kept : Kept first w.ghost w.record)
    (reason : ∀ x a, edits w.record x → Stores w.record x w.record.revision a → Justified w.ghost thread w.record a)
    (move : WriterMove traces edits thread w after) :
    (rely first).invariant after ∧ ∀ other, other ≠ thread → (rely first).rely other w after := by
  cases move with
  | idle => exact ⟨kept, fun other _ => (rely first).refl other w⟩
  | clock shows =>
    obtain ⟨genuine, rfl⟩ := shows
    exact noted (kept.shown thread _ genuine) fun reader different => lastShown_other different _ _
  | edited edit stores => exact saved_kept kept stores (reason _ _ edit stores)

end Requests

/-! ## Whole runs -/

/-- The runs of an allocation, from its first record. -/
abbrev Run (id : String) (first : Allocation) (system : System Calls (Cell Log) (Option GoError)) : Prop :=
  System.Reachable traces.semantics (fun _ _ => False) (fun _ => Worker id) System.concurrent
    (fun w => w = ⟨first, []⟩) system

theorem editor_safe {first : Allocation} {thread : Nat} {edits : Allocation → Allocation → Prop} {w : Cell Log}
    {program : Program Calls (Option GoError)}
    (reason : ∀ w : Cell Log, ∀ x a, edits w.record x → Stores w.record x w.record.revision a →
      Justified w.ghost thread w.record a)
    (follows : program.Follows (editProtocol edits) .start fun _ _ => True) :
    (rely first).Safe traces.semantics thread program (fun _ _ => True) w :=
  writer_safe (fun _ _ relied => relied.1) (fun _ _ _ _ executed => executed)
    (fun w _ kept move => writer_journal kept (reason w) move) follows

theorem worker_safe {id : String} {first : Allocation} {thread : Nat} {w : Cell Log}
    {program : Program Calls (Option GoError)} (worker : Worker id program) :
    (rely first).Safe traces.semantics thread program (fun _ _ => True) w := by
  cases worker with
  | step c =>
    refine Rely.safe_of_follows (stepProtocol c) (Knows thread) ?_ ?_ (step_follows id)
      ⟨fun a held => (by cases held), trivial⟩ fun _ _ _ _ _ => trivial
    · exact fun view before after _ knows relied => knows.stable relied
    · intro view w request reply after kept knows allowed executed
      obtain ⟨answered, move⟩ := step_move allowed executed
      obtain ⟨keeps, others, next⟩ := step_journal kept knows move
      exact ⟨keeps, others, answered, next⟩
  | writer writer => exact editor_safe (fun _ _ _ edit stores => .edited edit stores) (writer_follows writer)
  | retry settled => exact editor_safe (fun _ _ _ edit stores => .processed edit stores) (processRecord_follows id settled)

/-- However its writers are interleaved, the journal of an allocation is kept. -/
theorem run_kept {id : String} {first : Allocation} {system : System Calls (Cell Log) (Option GoError)}
    (run : Run id first system) : Kept first system.world.ghost system.world.record := by
  have safe : Rely.SystemSafe (rely first) traces.semantics (fun _ _ _ => True) system := by
    refine Rely.reachable_safe ?_ (fun _ _ _ impossible => impossible.elim) (fun _ _ _ _ worker => worker_safe worker) run
    rintro w rfl
    exact .opened
  exact safe.invariant

end RunnerScout.Journal
