import RunnerScout.Journal.Record

/-! # The durable record only moves forward

Every save extends the latest record: flags stay set, the job of an allocation is
named once, what it was admitted with never changes, and phases are only left in
one direction.  A record enters `Deleting` only when it was retired, or past its
deadline before its job had started.
-/

namespace RunnerScout.Journal

open Interaction Lifecycle Placement Operator

/-! ## Order of the phases -/

/-- Where a phase may lead.  Only a definitively rejected creation goes back, from
    `Creating` to `Pending`. -/
def Leads (phase later : Phase) : Prop :=
  match phase with
  | .running => later = .running ∨ later = .deleting ∨ later = .deleted
  | .deleting => later = .deleting ∨ later = .deleted
  | .deleted | .timedOut => later = phase
  | .pending | .creating | .other _ => True

theorem Leads.refl (phase : Phase) : Leads phase phase := by
  cases phase <;> simp [Leads]

theorem Leads.trans {first second third : Phase} (earlier : Leads first second) (later : Leads second third) :
    Leads first third := by
  cases first with
  | pending | creating | other text => trivial
  | running =>
    obtain rfl | rfl | rfl := earlier
    · exact later
    · exact .inr later
    · exact .inr (.inr later)
  | deleting =>
    obtain rfl | rfl := earlier
    · exact later
    · exact .inr later
  | deleted | timedOut =>
    cases earlier
    exact later

theorem Leads.of_terminal {phase later : Phase} (leads : Leads phase later) (terminal : phase.terminal = true) :
    later = phase := by
  cases phase <;> first | exact leads | cases terminal

/-- Every live phase may end in `Deleted`. -/
theorem leads_deleted {phase : Phase} (live : phase.terminal = false) : Leads phase .deleted := by
  cases phase <;> simp [Leads, Phase.terminal] at live ⊢

/-! ## Progress -/

structure Progress (earlier later : Allocation) : Prop where
  ready : earlier.ready = true → later.ready = true
  retire : earlier.retire = true → later.retire = true
  completed : earlier.completed = true → later.completed = true
  retryProcessed : earlier.retryProcessed = true → later.retryProcessed = true
  job : earlier.runID ≠ 0 → later.runID = earlier.runID ∧ later.owner = earlier.owner ∧
    later.repo = earlier.repo ∧ later.scaleSetJobID = earlier.scaleSetJobID
  attempts : earlier.attempts ≤ later.attempts
  admitted : later.id = earlier.id ∧ later.deadline = earlier.deadline ∧ later.maxAttempts = earlier.maxAttempts ∧
    later.catalog = earlier.catalog ∧ later.requirements = earlier.requirements ∧
    later.networkProfile = earlier.networkProfile ∧
    later.wireGuardOverlayAddress = earlier.wireGuardOverlayAddress
  phase : Leads earlier.phase later.phase
  final : earlier.phase.terminal = true →
    later.condition = earlier.condition ∧ later.terminalAt = earlier.terminalAt

namespace Progress

variable {first second third : Allocation}

/-- A write that changes neither flags nor the job nor what was admitted. -/
def Framed (first second : Allocation) : Prop :=
  second = { first with
    attempts := second.attempts, phase := second.phase, condition := second.condition
    terminalAt := second.terminalAt, offering := second.offering, outcomes := second.outcomes
    rejectedAt := second.rejectedAt, resourceID := second.resourceID, resources := second.resources
    revision := second.revision, wireGuardPublicKey := second.wireGuardPublicKey
    wireGuardPollTokenHash := second.wireGuardPollTokenHash, wireGuardEndpoint := second.wireGuardEndpoint }

theorem of_frame (frame : Framed first second) (attempts : first.attempts ≤ second.attempts)
    (phase : Leads first.phase second.phase)
    (final : first.phase.terminal = true →
      second.condition = first.condition ∧ second.terminalAt = first.terminalAt) : Progress first second := by
  rw [frame]
  exact ⟨id, id, id, id, fun _ => ⟨rfl, rfl, rfl, rfl⟩, attempts, ⟨rfl, rfl, rfl, rfl, rfl, rfl, rfl⟩, phase, final⟩

/-- Over a live record nothing has to be final. -/
theorem of_live (frame : Framed first second) (attempts : first.attempts ≤ second.attempts)
    (phase : Leads first.phase second.phase) (live : first.phase.terminal = false) : Progress first second := by
  refine of_frame frame attempts phase fun terminal => ?_
  rw [live] at terminal
  cases terminal

theorem refl (first : Allocation) : Progress first first :=
  of_frame rfl (Int.le_refl _) (.refl _) fun _ => ⟨rfl, rfl⟩

theorem trans (earlier : Progress first second) (later : Progress second third) : Progress first third where
  ready := fun set => later.ready (earlier.ready set)
  retire := fun set => later.retire (earlier.retire set)
  completed := fun set => later.completed (earlier.completed set)
  retryProcessed := fun set => later.retryProcessed (earlier.retryProcessed set)
  job := fun named => by
    obtain ⟨run, owner, repo, job⟩ := earlier.job named
    obtain ⟨run', owner', repo', job'⟩ := later.job (by rw [run]; exact named)
    exact ⟨run'.trans run, owner'.trans owner, repo'.trans repo, job'.trans job⟩
  attempts := Int.le_trans earlier.attempts later.attempts
  admitted := by
    obtain ⟨id, deadline, limit, catalog, requirements, network, address⟩ := earlier.admitted
    obtain ⟨id', deadline', limit', catalog', requirements', network', address'⟩ := later.admitted
    exact ⟨id'.trans id, deadline'.trans deadline, limit'.trans limit, catalog'.trans catalog,
      requirements'.trans requirements, network'.trans network, address'.trans address⟩
  phase := earlier.phase.trans later.phase
  final := fun terminal => by
    obtain ⟨condition, stamp⟩ := earlier.final terminal
    obtain ⟨condition', stamp'⟩ := later.final (by rw [earlier.phase.of_terminal terminal]; exact terminal)
    exact ⟨condition'.trans condition, stamp'.trans stamp⟩

/-- The store keeps what it is given, up to the order of the references. -/
theorem saved {x stored : Allocation} (progress : Progress first x) (saved : Saved x stored) :
    Progress first stored := by
  rw [saved]
  exact ⟨progress.ready, progress.retire, progress.completed, progress.retryProcessed, progress.job,
    progress.attempts, progress.admitted, progress.phase, progress.final⟩

end Progress

/-- A record is stamped exactly when it is terminal. -/
def Stamped (a : Allocation) : Prop := a.terminalAt ≠ 0 ↔ a.phase.terminal = true

/-- A record that may enter `Deleting` at the instant `now`. -/
def Due (a : Allocation) (now : Option Time) : Prop :=
  a.retire = true ∨ (a.ready = false ∧ ∃ instant, now = some instant ∧ a.deadline ≤ instant)

theorem overdue_due {a : Allocation} {now : Time} (overdue : a.overdue now = true) : Due a (some now) := by
  simp only [Allocation.overdue, Allocation.expired, Bool.or_eq_true, Bool.and_eq_true, Bool.not_eq_true',
    decide_eq_false_iff_not, Int.not_lt] at overdue
  obtain retire | ⟨expired, unready⟩ := overdue
  · exact .inl retire
  · exact .inr ⟨unready, now, rfl, expired⟩

/-- What one write does to the record it is made over. -/
structure Extends (now : Option Time) (before after : Allocation) : Prop where
  progress : Progress before after
  stamped : Stamped before → Stamped after
  deleting : before.phase ≠ .deleting → after.phase = .deleting → Due before now

section Writes

variable {c : Controller} {now : Time} {a x : Allocation} {cleared : Bool} {e : Option GoError}

/-- A write that leaves the phase and the stamp of its record alone. -/
theorem Extends.same {now : Option Time} (progress : Progress a x) (phase : x.phase = a.phase)
    (stamp : x.terminalAt = a.terminalAt) : Extends now a x where
  progress := progress
  stamped := fun stamped => by rw [Stamped, phase, stamp]; exact stamped
  deleting := fun other deleting => absurd (phase.symm.trans deleting) other

/-- A write that moves a live record to another live phase. -/
theorem Extends.moved {now : Option Time} (progress : Progress a x) (live : a.phase.terminal = false)
    (lives : x.phase.terminal = false) (stamp : x.terminalAt = a.terminalAt)
    (deleting : x.phase = .deleting → Due a now) : Extends now a x where
  progress := progress
  stamped := fun stamped => by
    rw [Stamped, stamp, lives, ← live]
    exact stamped
  deleting := fun _ => deleting

/-- A write that ends a live record. -/
theorem Extends.ended {now : Option Time} {instant : Time} (progress : Progress a x)
    (terminal : x.phase.terminal = true) (stamp : x.terminalAt = instant) (genuine : instant ≠ 0) :
    Extends now a x where
  progress := progress
  stamped := fun _ => iff_of_true (by rw [stamp]; exact genuine) terminal
  deleting := fun _ deleting => by
    rw [deleting] at terminal
    cases terminal

theorem PendingWrite.extends (write : PendingWrite c now a cleared x) (pending : a.phase = .pending)
    (genuine : now ≠ 0) : Extends (some now) a x := by
  have live : a.phase.terminal = false := by rw [pending]; rfl
  have leads (later : Phase) : Leads a.phase later := by rw [pending]; trivial
  cases write with
  | timeOut givesUp deregistered => exact .ended (.of_live rfl (Int.le_refl _) (leads _) live) rfl rfl genuine
  | refused waits e refused => exact .same (.of_live rfl (Int.le_refl _) (leads _) live) rfl rfl
  | commit waits o chosen =>
    refine .moved (.of_live rfl ?_ (leads _) live) live rfl rfl fun deleting => by cases deleting
    exact Int.le_add_one (Int.le_refl _)

theorem CreatedWrite.extends {o : Offering} {creation : Creation} (write : CreatedWrite now o a creation e x)
    (creating : a.phase = .creating) : Extends (some now) a x := by
  have live : a.phase.terminal = false := by rw [creating]; rfl
  have leads (later : Phase) : Leads a.phase later := by rw [creating]; trivial
  cases write with
  | preparationFailed rejected empty | capacityRejected rejected empty =>
    exact .moved (.of_live rfl (Int.le_refl _) (leads _) live) live rfl rfl fun deleting => by cases deleting
  | unmerged ambiguous err failed => exact .same (.of_live rfl (Int.le_refl _) (leads _) live) rfl rfl
  | uncertain ambiguous unknown resources changed merged =>
    exact .same (.of_live rfl (Int.le_refl _) (leads _) live) rfl rfl
  | vmCreated named succeeded resources changed merged =>
    exact .moved (.of_live rfl (Int.le_refl _) (leads _) live) live rfl rfl fun deleting => by cases deleting

theorem found_extends {resourceID : String} (creating : a.phase = .creating) :
    Extends (some now) a (a.found resourceID (a.overdue now)) := by
  have live : a.phase.terminal = false := by rw [creating]; rfl
  have leads (later : Phase) : Leads a.phase later := by rw [creating]; trivial
  unfold Allocation.found Allocation.cleanUp
  dsimp only
  split
  · rename_i overdue
    exact .moved (.of_live rfl (Int.le_refl _) (leads _) live) live rfl rfl fun _ => overdue_due overdue
  · exact .moved (.of_live rfl (Int.le_refl _) (leads _) live) live rfl rfl fun deleting => by cases deleting

theorem ObservedWrite.extends {ob : Observation} (write : ObservedWrite c now a ob e cleared x) (genuine : now ≠ 0)
    (lives : a.phase.terminal = true → ob.absent e) : Extends (some now) a x := by
  cases write with
  | remember resources merged =>
    exact .same (.of_frame rfl (Int.le_refl _) (.refl _) fun _ => ⟨rfl, rfl⟩) rfl rfl
  | undecided unknown =>
    refine .same (.of_frame rfl (Int.le_refl _) (.refl _) fun terminal => ?_) rfl rfl
    obtain ⟨succeeded, known, _⟩ := lives terminal
    simp [succeeded, known] at unknown
  | release live absent deregistered =>
    exact .ended (.of_live rfl (Int.le_refl _) (leads_deleted live) live) rfl rfl genuine
  | found creating succeeded known present => exact found_extends creating
  | unconfirmed deleting err => exact .same (.of_live rfl (Int.le_refl _) (.refl _) (by rw [deleting]; rfl)) rfl rfl

/-- Whatever `Step` saves extends the record it holds. -/
theorem writes_extends {log : Log} {thread : Nat} {view : View} (writes : view.writes c x)
    (held : view.held = some a) (backed : Backed log thread view)
    (genuine : ∀ now, lastShown thread log = some now → now ≠ 0) : Extends (lastShown thread log) a x := by
  cases writes with
  | @pending now a cleared x phase retains write =>
    cases held
    rw [show lastShown thread log = some now from backed]
    exact PendingWrite.extends write phase (genuine now backed)
  | fence phase =>
    cases held
    exact .same (.refl _) rfl rfl
  | @cleanUp now a cleared phase overdue =>
    cases held
    rw [show lastShown thread log = some now from backed]
    have live : a.phase.terminal = false := by rw [phase]; rfl
    refine .moved (.of_live rfl (Int.le_refl _) ?_ live) live rfl rfl fun _ => overdue_due overdue
    rw [phase]
    exact .inr (.inl rfl)
  | @created now o a creation e x write =>
    cases held
    rw [backed.1]
    exact CreatedWrite.extends write backed.2.1
  | @observed now a ob e cleared x write =>
    cases held
    rw [backed.1]
    exact ObservedWrite.extends write (genuine now backed.1) backed.2

/-- A job is named once. -/
theorem startedBy_progress (a : Allocation) (j : JobStarted) : Progress a (startedBy a j) := by
  unfold startedBy
  dsimp only
  split
  · rename_i unnamed
    exact ⟨fun _ => rfl, id, id, id, fun named => absurd unnamed named, Int.le_refl _, ⟨rfl, rfl, rfl, rfl, rfl, rfl, rfl⟩,
      .refl _, fun _ => ⟨rfl, rfl⟩⟩
  · exact ⟨fun _ => rfl, id, id, id, fun _ => ⟨rfl, rfl, rfl, rfl⟩, Int.le_refl _,
      ⟨rfl, rfl, rfl, rfl, rfl, rfl, rfl⟩, .refl _, fun _ => ⟨rfl, rfl⟩⟩

theorem edit_extends {now : Option Time} (edit : Edit a x) : Extends now a x := by
  have touched := edit.touched
  refine .same ?_ (by rw [touched]) (by rw [touched])
  cases edit with
  | started j => exact startedBy_progress a j
  | completed =>
    exact ⟨id, fun _ => rfl, fun _ => rfl, id, fun _ => ⟨rfl, rfl, rfl, rfl⟩, Int.le_refl _,
      ⟨rfl, rfl, rfl, rfl, rfl, rfl, rfl⟩, .refl _, fun _ => ⟨rfl, rfl⟩⟩
  | retired =>
    exact ⟨id, fun _ => rfl, id, id, fun _ => ⟨rfl, rfl, rfl, rfl⟩, Int.le_refl _,
      ⟨rfl, rfl, rfl, rfl, rfl, rfl, rfl⟩, .refl _, fun _ => ⟨rfl, rfl⟩⟩

theorem processed_extends {now : Option Time} (processed : Processed a x) : Extends now a x := by
  cases processed with
  | marked =>
    exact .same ⟨id, id, id, fun _ => rfl, fun _ => ⟨rfl, rfl, rfl, rfl⟩, Int.le_refl _,
      ⟨rfl, rfl, rfl, rfl, rfl, rfl, rfl⟩, .refl _, fun _ => ⟨rfl, rfl⟩⟩ rfl rfl
  | left => exact .same (.refl _) rfl rfl

theorem Extends.saved {now : Option Time} {stored : Allocation} (extend : Extends now a x) (saved : Saved x stored) :
    Extends now a stored where
  progress := extend.progress.saved saved
  stamped := fun stamped => by
    have stamped := extend.stamped stamped
    rw [saved]
    exact stamped
  deleting := fun other deleting => extend.deleting other (by rw [saved] at deleting; exact deleting)

end Writes

/-- Every save of a journal extends the record before it. -/
theorem Justified.extends {first before after : Allocation} {log : Log} {thread : Nat} (kept : Kept first log before)
    (reason : Justified log thread before after) : Extends (lastShown thread log) before after := by
  cases reason with
  | step writes held backed stores =>
    exact (writes_extends writes held backed fun now shown => kept.shown_ne_zero shown).saved stores.saved
  | edited edit stores => exact (edit_extends edit).saved stores.saved
  | processed processed stores => exact (processed_extends processed).saved stores.saved

/-! ## Whole runs -/

/-- The records that were stored, the latest first. -/
def stored (first : Allocation) : Log → List Allocation
  | [] => [first]
  | .saved _ _ after :: log => after :: stored first log
  | _ :: log => stored first log

theorem first_mem_stored (first : Allocation) (log : Log) : first ∈ stored first log := by
  induction log with
  | nil => exact List.mem_cons_self
  | cons event log ih =>
    cases event with
    | saved thread before after => exact List.mem_cons_of_mem _ ih
    | shown | created | observed => exact ih

/-- What every journal says about the records stored. -/
structure Forward (first : Allocation) (log : Log) (record : Allocation) : Prop where
  latest : (stored first log).head? = some record
  progress : (stored first log).Pairwise fun later earlier => Progress earlier later
  stamped : ∀ a ∈ stored first log, Stamped a
  deleting : ∀ recent thread before after earlier, log = recent ++ .saved thread before after :: earlier →
    before.phase ≠ .deleting → after.phase = .deleting → Due before (lastShown thread earlier)

theorem stored_progress {first record : Allocation} {log : Log} (latest : (stored first log).head? = some record)
    (progress : (stored first log).Pairwise fun later earlier => Progress earlier later) :
    ∀ a ∈ stored first log, Progress a record := by
  cases all : stored first log with
  | nil => simp
  | cons head rest =>
    rw [all] at latest progress
    cases latest
    intro a member
    obtain rfl | earlier := List.mem_cons.mp member
    · exact .refl a
    · exact List.rel_of_pairwise_cons progress earlier

/-- An event that is no save. -/
theorem Forward.noted {first record : Allocation} {log : Log} {event : Event} (forward : Forward first log record)
    (same : stored first (event :: log) = stored first log)
    (quiet : ∀ thread before after, event ≠ .saved thread before after) : Forward first (event :: log) record where
  latest := by rw [same]; exact forward.latest
  progress := by rw [same]; exact forward.progress
  stamped := by rw [same]; exact forward.stamped
  deleting := by
    intro recent thread before after earlier split
    cases recent with
    | nil =>
      cases split
      exact absurd rfl (quiet thread before after)
    | cons _ recent =>
      cases split
      exact forward.deleting recent thread before after earlier rfl

theorem Kept.forward {first record : Allocation} {log : Log} (fresh : Stamped first) (kept : Kept first log record) :
    Forward first log record := by
  induction kept with
  | opened => exact ⟨rfl, List.pairwise_singleton .., by simpa [stored] using fresh, by simp⟩
  | shown kept thread now genuine forward => exact forward.noted rfl fun _ _ _ => by simp
  | created kept thread a creation e forward => exact forward.noted rfl fun _ _ _ => by simp
  | observed kept thread a ob e forward => exact forward.noted rfl fun _ _ _ => by simp
  | @saved log record after kept thread reason forward =>
    have extend := reason.extends kept
    have earlier := stored_progress forward.latest forward.progress
    have member : record ∈ stored first log := List.mem_of_mem_head? (by rw [forward.latest]; rfl)
    refine ⟨rfl, List.pairwise_cons.mpr ⟨fun a old => (earlier a old).trans extend.progress, forward.progress⟩, ?_, ?_⟩
    · intro a inside
      obtain rfl | old := List.mem_cons.mp inside
      · exact extend.stamped (forward.stamped record member)
      · exact forward.stamped a old
    · intro recent reader before later rest split
      cases recent with
      | nil =>
        cases split
        exact extend.deleting
      | cons _ recent =>
        cases split
        exact forward.deleting recent reader before later rest rfl

/-- An allocation as `HandleDesiredRunnerCount` admits it and `Tick` first stores it; a
    draining operator retires it right away. -/
def Admitted (first : Allocation) : Prop :=
  ∃ (o : Operator) (now : Time) (catalog : Catalog) (address : String) (retire : Bool) (revision : Revision),
    first = { o.newAllocation first.id now catalog address with retire := retire, revision := revision }

theorem Admitted.stamped {first : Allocation} (admitted : Admitted first) : Stamped first := by
  obtain ⟨o, now, catalog, address, retire, revision, same⟩ := admitted
  rw [same]
  exact iff_of_false (fun stamped => stamped rfl) Bool.false_ne_true

/-- The durable record is monotone, however its writers are interleaved.  `Deleting` is
    entered only over a record that was retired, or past its deadline with its job not
    started; once the start is stored, the deadline cannot end the job any more. -/
theorem record_monotone {id : String} {first : Allocation} {system : System Calls (Cell Log) (Option GoError)}
    (admitted : Admitted first) (run : Run id first system) :
    Forward first system.world.ghost system.world.record ∧
      ∀ recent thread before after earlier, system.world.ghost = recent ++ .saved thread before after :: earlier →
        before.phase ≠ .deleting → after.phase = .deleting → before.ready = true → before.retire = true := by
  have forward := (run_kept run).forward admitted.stamped
  refine ⟨forward, fun recent thread before after earlier split other deleting ready => ?_⟩
  obtain retire | ⟨unready, _⟩ := forward.deleting recent thread before after earlier split other deleting
  · exact retire
  · rw [ready] at unready
    cases unready

/-! A run of all the writers: created, started, past its deadline, completed, cleaned up. -/

/-- A provider whose virtual machine stays until it is deleted; the clock of thread `n`
    shows the `n`-th minute. -/
def steadyProvider : TracesOracle Log where
  create := fun thread a log =>
    (({ resourceID := "i-1" }, none), .created thread a { resourceID := "i-1" } none :: log)
  observe := fun thread a log =>
    (({ present := true, known := true }, none), .observed thread a { present := true, known := true } none :: log)
  delete := fun _ _ log => (none, log)
  now := fun thread log => ((thread + 1) * minute, .shown thread ((thread + 1) * minute) :: log)
  deregister := fun _ _ _ log => (none, log)

theorem steadyProvider_honest : steadyProvider.Honest traces where
  create := fun _ _ _ => rfl
  named := fun _ _ _ => rfl
  observe := fun _ _ _ => rfl
  delete := fun _ _ _ => rfl
  now := fun thread _ => by
    refine ⟨?_, rfl⟩
    change ((thread : Int) + 1) * minute ≠ 0
    rw [minute, second]
    omega
  deregister := fun _ _ _ _ => rfl

def jobPastDeadline : List (Nat × Nat × Program Calls (Option GoError)) :=
  let step := fun thread => (thread, 10, smallController.step "runner-1")
  [step 0, (1, 10, handleJobStarted (some { runnerName := "runner-1", workflowRunID := 7 })), step 20,
    (1, 10, handleJobCompleted (some ⟨"runner-1"⟩)), step 21]

def jobOver : System Calls (Cell Log) (Option GoError) where
  world := System.playAll (tracesOracle steadyProvider traces.save) jobPastDeadline ⟨smallRecord, []⟩
  threads := fun _ => none

theorem jobOver_run : Run "runner-1" smallRecord jobOver := by
  refine System.Reachable.playAll (fun _ => tracesOracle_honest steadyProvider_honest) _ ?_ (.initial _ rfl)
  intro turn member
  simp only [jobPastDeadline, List.mem_cons, List.not_mem_nil, or_false] at member
  obtain rfl | rfl | rfl | rfl | rfl := member
  · exact .step smallController
  · exact .writer (.jobStarted _ rfl)
  · exact .step smallController
  · exact .writer (.jobCompleted _ rfl)
  · exact .step smallController

theorem smallRecord_admitted : Admitted smallRecord :=
  ⟨{ config := { name := "scale-set", provisioningSeconds := 600, requirements := smallRecord.requirements } }, 0,
    smallRecord.catalog, "", false, 1, rfl⟩

theorem record_monotone_jobOver :
    jobOver.world.record.phase = .deleting ∧ jobOver.world.record.runID = 7 ∧
      Forward smallRecord jobOver.world.ghost jobOver.world.record :=
  ⟨by decide +kernel, by decide +kernel, (record_monotone smallRecord_admitted jobOver_run).1⟩

end RunnerScout.Journal
