import RunnerScout.Lifecycle.Cell

/-! # The other writers of an allocation record

Besides `Step`, three places of the operator save an allocation: the two job
event handlers and the retirement of an overdue allocation in `Tick`.  Each reads
the record, changes fields `Step` leaves alone, and saves it under the revision it
was read at.
-/

namespace RunnerScout.Operator

open Interaction Program Lifecycle

structure JobStarted where
  runnerName : String
  workflowRunID : Int := 0
  ownerName : String := ""
  repositoryName : String := ""
  jobID : String := ""
deriving DecidableEq, Repr

structure JobCompleted where
  runnerName : String
deriving DecidableEq, Repr

/-- A start event marks the allocation ready and names its job, once. -/
def startedBy (a : Allocation) (j : JobStarted) : Allocation :=
  let a := { a with ready := true }
  if a.runID = 0 then
    { a with
      runID := j.workflowRunID
      owner := j.ownerName
      repo := j.repositoryName
      scaleSetJobID := j.jobID }
  else a

def handleJobStarted (j : Option JobStarted) : Program Calls (Option GoError) := do
  match j with
  | none => return some (.new "nil job start")
  | some j =>
    match ← ask (S := Calls) (.load j.runnerName) with
    | .error e => if errorIs (some e) .notFound then return none else return some e
    | .ok a => save (startedBy a j)

def handleJobCompleted (j : Option JobCompleted) : Program Calls (Option GoError) := do
  match j with
  | none => return some (.new "nil job completion")
  | some j =>
    match ← ask (S := Calls) (.load j.runnerName) with
    | .error e => if errorIs (some e) .notFound then return none else return some e
    | .ok a => save { a with retire := true, completed := true }

/-- The retirement of one listed allocation.  The clock is read only when nothing
    else has decided yet. -/
def retireOverdue (draining : Bool) (lifetime : Duration) (created : Time) (a : Allocation) :
    Program Calls (Option GoError) := do
  if a.retire then return none
  else if draining then save { a with retire := true }
  else
    let now ← ask (S := Calls) .now
    if now < created + lifetime then return none else save { a with retire := true }

/-- One writer acting on the allocation `id`.  `Tick` reads the record in its listing. -/
inductive Writer (id : String) : Program Calls (Option GoError) → Prop where
  | jobStarted (j : JobStarted) (names : j.runnerName = id) : Writer id (handleJobStarted (some j))
  | jobCompleted (j : JobCompleted) (names : j.runnerName = id) : Writer id (handleJobCompleted (some j))
  | retire (draining : Bool) (lifetime : Duration) (created : Time) :
      Writer id (do
        match ← ask (S := Calls) (.load id) with
        | .error e => return some e
        | .ok a => retireOverdue draining lifetime created a)

/-! ## What a writer may do -/

/-- What each writer makes of the record it read. -/
inductive Edit (a : Allocation) : Allocation → Prop where
  | started (j : JobStarted) : Edit a (startedBy a j)
  | completed : Edit a { a with retire := true, completed := true }
  | retired : Edit a { a with retire := true }

/-- The fields a writer may change; everything `Step` decides on the cloud with is
    the same in both records. -/
def Touched (a x : Allocation) : Prop :=
  x = { a with
    ready := x.ready
    retire := x.retire
    completed := x.completed
    runID := x.runID
    owner := x.owner
    repo := x.repo
    scaleSetJobID := x.scaleSetJobID }

theorem Edit.touched {a x : Allocation} (edit : Edit a x) : Touched a x := by
  cases edit with
  | started j =>
    unfold startedBy
    dsimp only
    split <;> rfl
  | completed => rfl
  | retired => rfl

inductive WriterView where
  | start
  | read (a : Allocation)
  | closed

def WriterView.allowed (edits : Allocation → Allocation → Prop) (view : WriterView) : Request → Prop
  | .load _ => view = .start
  | .now => True
  | .save x revision => ∃ a, view = .read a ∧ revision = a.revision ∧ edits a x
  | _ => False

def WriterView.next (view : WriterView) : (request : Request) → Reply request → WriterView
  | .load _, .ok a => .read a
  | .now, _ => view
  | _, _ => .closed

/-- Read the record, change it in one of some ways, and save it at the revision read. -/
def editProtocol (edits : Allocation → Allocation → Prop) : Protocol Calls WriterView where
  allowed := WriterView.allowed edits
  answers := fun _ _ => True
  next := WriterView.next

abbrev writerProtocol : Protocol Calls WriterView := editProtocol Edit

theorem edit_follows {edits : Allocation → Allocation → Prop} {a x : Allocation} (edit : edits a x)
    (revision : x.revision = a.revision) :
    (save x).Follows (editProtocol edits) (.read a) fun _ _ => True := by
  refine .request ⟨a, rfl, revision, edit⟩ fun reply _ => ?_
  cases reply <;> exact .done trivial

theorem Edit.follows {a x : Allocation} (edit : Edit a x) :
    (save x).Follows writerProtocol (.read a) fun _ _ => True :=
  edit_follows edit (by rw [edit.touched])

theorem retireOverdue_follows (draining : Bool) (lifetime : Duration) (created : Time) (a : Allocation) :
    (retireOverdue draining lifetime created a).Follows writerProtocol (.read a) fun _ _ => True := by
  unfold retireOverdue
  split
  · exact .done trivial
  split
  · exact Edit.retired.follows
  refine .request trivial fun now _ => ?_
  change Program.Follows _ writerProtocol (.read a) _
  split
  · exact .done trivial
  · exact Edit.retired.follows

theorem writer_follows {id : String} {program : Program Calls (Option GoError)} (writer : Writer id program) :
    program.Follows writerProtocol .start fun _ _ => True := by
  cases writer with
  | jobStarted j names =>
    refine .request rfl fun reply _ => ?_
    cases reply with
    | error e => dsimp only; split <;> exact .done trivial
    | ok a => exact (Edit.started j).follows
  | jobCompleted j names =>
    refine .request rfl fun reply _ => ?_
    cases reply with
    | error e => dsimp only; split <;> exact .done trivial
    | ok a => exact Edit.completed.follows
  | retire draining lifetime created =>
    refine .request rfl fun reply _ => ?_
    cases reply with
    | error e => exact .done trivial
    | ok a => exact retireOverdue_follows draining lifetime created a

/-- What a writer knows of the stored record. -/
def WriterView.holds (view : WriterView) (record : Allocation) : Prop :=
  match view with
  | .read a => Snapshot record a
  | _ => True

theorem WriterView.holds_stable {before after : Allocation} (view : WriterView) (holds : view.holds before)
    (later : Snapshot after before) : view.holds after := by
  cases view with
  | read a => exact later.trans holds
  | start => trivial
  | closed => trivial

/-- The moves of a writer: it leaves the record alone, or edits the record it read. -/
inductive WriterMove {γ : Type} (traces : Traces γ) (edits : Allocation → Allocation → Prop) (thread : Nat)
    (w : Cell γ) : Cell γ → Prop where
  | idle : WriterMove traces edits thread w w
  | clock {now ghost} (shows : traces.now thread w.ghost now ghost) :
      WriterMove traces edits thread w ⟨w.record, ghost⟩
  | edited {x a} (edit : edits w.record x) (stores : Stores w.record x w.record.revision a) :
      WriterMove traces edits thread w ⟨a, traces.save thread w.record a w.ghost⟩

theorem writer_move {γ : Type} {traces : Traces γ} {edits : Allocation → Allocation → Prop} {thread : Nat}
    {w after : Cell γ} {view : WriterView} {request : Request} {reply : Reply request}
    (holds : view.holds w.record) (allowed : view.allowed edits request)
    (executed : traces.semantics thread w request reply after) :
    (view.next request reply).holds after.record ∧ WriterMove traces edits thread w after := by
  obtain ⟨record, ghost⟩ := after
  cases request with
  | load id =>
    cases reply with
    | error e =>
      cases executed
      exact ⟨trivial, .idle⟩
    | ok a =>
      obtain ⟨same, _, rfl⟩ := executed
      cases same
      exact ⟨.self _, .idle⟩
  | now =>
    obtain ⟨shows, same⟩ := executed
    cases same
    exact ⟨holds, .clock shows⟩
  | save x revision =>
    obtain ⟨a, rfl, rfl, edit⟩ := allowed
    refine ⟨by cases reply <;> trivial, ?_⟩
    obtain ⟨same, _⟩ | ⟨stored, stores, same, _⟩ := cell_save executed
    · cases same
      exact .idle
    · cases same
      have current : a = w.record := Snapshot.applied holds stores
      subst current
      exact .edited edit stores
  | create | createWithResources | observe | reconcileCreation | delete | deregisterRunner => exact allowed.elim

/-- A writer is safe once each of its moves is. -/
theorem writer_safe {γ : Type} {rely : Rely (Cell γ)} {semantics : Semantics Calls (Cell γ)} {traces : Traces γ}
    {edits : Allocation → Allocation → Prop} {thread : Nat} {w : Cell γ} {program : Program Calls (Option GoError)}
    (recorded : ∀ before after, rely.rely thread before after → Snapshot after.record before.record)
    (traced : ∀ w request reply after, semantics thread w request reply after →
      traces.semantics thread w request reply after)
    (moves : ∀ w after, rely.invariant w → WriterMove traces edits thread w after →
      rely.invariant after ∧ ∀ other, rely.together thread other → rely.rely other w after)
    (follows : program.Follows (editProtocol edits) .start fun _ _ => True) :
    rely.Safe semantics thread program (fun _ _ => True) w := by
  refine Rely.safe_of_follows (editProtocol edits) (fun view w => WriterView.holds view w.record) ?_ ?_ follows
    trivial fun _ _ _ _ _ => trivial
  · intro view before after _ holds relied
    exact view.holds_stable holds (recorded before after relied)
  · intro view w request reply after kept holds allowed executed
    obtain ⟨next, move⟩ := writer_move holds allowed (traced w request reply after executed)
    obtain ⟨keeps, others⟩ := moves w after kept move
    exact ⟨keeps, others, trivial, next⟩

end RunnerScout.Operator
