import RunnerScout.Provider.Outcome
import RunnerScout.Provider.Signal
import RunnerScout.Provider.Stepping
import RunnerScout.Ticks.Retirement

/-! # Interruptions

An allocation is recorded as interrupted only on the signal of its own cloud, seen by
the cycle that found its resources gone.  For Azure the signal is a queue message,
which is deleted when it is polled and remembered for one cycle only.
-/

namespace RunnerScout.Ticks

open Interaction Lifecycle Placement Operator State
open Provider (Command Adapted ProvenAbsent Signalled azureVM equalFold)
open Capacity (Call)

variable {id : String} {results : List Interruption} {interruptions : GoMap String Bool} {old : Option Allocation}

def interruptedCondition : String := "ResourceAbsentConfirmedInterruption"

/-! ## The one write that reports an interruption -/

theorem append_ne_of_not_isPrefix {start rest whole : String} (differs : ¬ start.toList <+: whole.toList) :
    start ++ rest ≠ whole := by
  rintro rfl
  exact differs (String.toList_append ▸ List.prefix_append _ _)

theorem scan_text {now : Time} {r : Requirements} {outcomes : GoMap String Placement.Outcome} {e : GoError} :
    ∀ {offerings : List Offering} {s : Scan}, scan now r outcomes offerings s = .error e →
      e.text ≠ interruptedCondition
  | [], s, failed => by cases failed
  | o :: rest, s, failed => by
    unfold scan at failed
    dsimp only at failed
    repeat' split at failed
    all_goals first
      | exact scan_text failed
      | (cases failed; exact append_ne_of_not_isPrefix (by decide +kernel))
      | (cases failed; decide)

theorem choose_text {now : Time} {r : Requirements} {c : Catalog} {outcomes : GoMap String Placement.Outcome}
    {e : GoError} (refused : choose now r c outcomes = .error e) : e.text ≠ interruptedCondition := by
  unfold choose at refused
  split at refused
  · rename_i invalid
    cases refused
    unfold Requirements.validate at invalid
    repeat' split at invalid
    all_goals cases invalid
    all_goals decide
  split at refused
  · cases refused
    decide
  split at refused
  · rename_i failed
    cases refused
    exact scan_text failed
  repeat' split at refused
  all_goals cases refused
  all_goals decide

theorem undecided_text (phase : Phase) (e : Option GoError) : undecidedCondition phase e ≠ interruptedCondition := by
  cases phase <;> exact append_ne_of_not_isPrefix (by decide +kernel)

section Writes

variable {c : Controller} {view : View} {r x : Allocation}

/-- Of all that `Step` saves, only the release of a running record whose provider reported
    an interruption puts the condition there. -/
theorem writes_interrupted (writes : view.writes c x) (held : view.held = some r)
    (condition : x.condition = interruptedCondition) :
    r.condition = interruptedCondition ∨ ∃ now ob e cleared, view = .observed now r ob e cleared ∧ ob.absent e ∧
      r.phase = .running ∧ ob.interrupted = true ∧ x.phase.terminal = true := by
  cases writes with
  | pending phase retains write =>
    cases held
    cases write with
    | timeOut => exact absurd condition (show "LocalProvisioningTimeout" ≠ interruptedCondition by decide)
    | commit => exact absurd condition (show "CreateCommitmentUnknown" ≠ interruptedCondition by decide)
    | refused waits e refused => exact absurd condition (choose_text refused)
  | fence phase =>
    cases held
    exact .inl condition
  | cleanUp => exact absurd condition (show "CleanupPending" ≠ interruptedCondition by decide)
  | created write =>
    cases held
    cases write with
    | preparationFailed => exact absurd condition (append_ne_of_not_isPrefix (by decide +kernel))
    | capacityRejected => exact absurd condition (show "CapacityRejected" ≠ interruptedCondition by decide)
    | vmCreated => exact absurd condition (show "VMCreated" ≠ interruptedCondition by decide)
    | unmerged => exact .inl condition
    | uncertain =>
      simp only [Allocation.uncertain] at condition
      split at condition
      · exact absurd condition (append_ne_of_not_isPrefix (by decide +kernel))
      · exact .inl condition
  | @observed now _ ob e cleared _ write =>
    cases held
    cases write with
    | remember => exact .inl condition
    | undecided => exact absurd condition (undecided_text _ _)
    | release live absent =>
      have text : absentCondition r.phase ob = interruptedCondition := condition
      unfold absentCondition at text
      split at text
      · exact absurd text (by decide)
      · rename_i running
        split at text
        · exact .inr ⟨now, ob, e, cleared, rfl, absent, running, ‹_›, rfl⟩
        · exact absurd text (by decide)
      · exact absurd text (by decide)
    | found =>
      unfold Allocation.found at condition
      dsimp only at condition
      split at condition
      · exact absurd condition (show "LocalProvisioningTimeoutCleanupPending" ≠ interruptedCondition by decide)
      · exact .inl condition
    | unconfirmed => exact absurd condition (append_ne_of_not_isPrefix (by decide +kernel))

/-- A running record ends only by an observation that found its resources gone. -/
theorem writes_released (writes : view.writes c x) (held : view.held = some r) (running : r.phase = .running)
    (deleted : x.phase = .deleted) : ∃ now ob e cleared, view = .observed now r ob e cleared ∧ ob.absent e ∧
      x.condition = absentCondition .running ob := by
  cases writes with
  | pending phase | fence phase =>
    cases held
    cases running.symm.trans phase
  | cleanUp => cases deleted
  | created write =>
    cases held
    cases write with
    | preparationFailed | capacityRejected | vmCreated => cases deleted
    | unmerged | uncertain => cases running.symm.trans deleted
  | @observed now _ ob e cleared _ write =>
    cases held
    cases write with
    | remember | undecided | unconfirmed => cases running.symm.trans deleted
    | release live absent => exact ⟨now, ob, e, cleared, rfl, absent, by rw [← running]; rfl⟩
    | found creating => cases running.symm.trans creating

/-- `Step` saves nothing over a record that has ended. -/
theorem writes_live (writes : view.writes c x) (held : view.held = some r) : r.phase.terminal = false := by
  cases writes with
  | pending phase | fence phase | cleanUp phase =>
    cases held
    rw [phase]
    rfl
  | created write live | observed write live =>
    cases held
    exact live

end Writes

/-! ## Messages -/

/-- A message that says that the virtual machine under `id` was preempted. -/
def Preempts (m : Interruption) (id : String) : Prop := m.err = none ∧ m.preempted = true ∧ m.resourceID = id

/-- One turn of the loop over the messages. -/
def addInterruption (m : GoMap String Bool) (r : Interruption) : GoMap String Bool :=
  if r.err.isSome || r.resourceID = "" then m
  else m.insert r.resourceID ((m.lookup r.resourceID).getD false || r.preempted)

theorem addInterruption_lookup {m : GoMap String Bool} {r : Interruption} :
    (addInterruption m r).lookup id = some true ↔ m.lookup id = some true ∨ (Preempts r id ∧ id ≠ "") := by
  unfold addInterruption
  split
  · rename_i skipped
    simp only [Bool.or_eq_true, Option.isSome_iff_ne_none, decide_eq_true_eq] at skipped
    constructor
    · exact .inl
    · rintro (known | ⟨⟨classified, _, rfl⟩, named⟩)
      · exact known
      · exact (skipped.elim (fun failed => failed classified) named).elim
  · rename_i kept
    simp only [Bool.or_eq_true, Option.isSome_iff_ne_none, decide_eq_true_eq, not_or, not_not] at kept
    by_cases same : id = r.resourceID
    · subst same
      have default : (m.lookup r.resourceID).getD false = true ↔ m.lookup r.resourceID = some true := by
        cases m.lookup r.resourceID <;> simp
      simp [AList.lookup_insert, Preempts, kept.1, kept.2, default]
    · rw [AList.lookup_insert_ne same]
      constructor
      · exact .inl
      · rintro (known | ⟨⟨_, _, named⟩, _⟩)
        · exact known
        · exact absurd named.symm same

/-- The snapshot of a cycle holds what its messages say. -/
theorem interruptionsOf_lookup :
    (interruptionsOf results).lookup id = some true ↔ ∃ m ∈ results, Preempts m id ∧ id ≠ "" := by
  have loop (m : GoMap String Bool) : (results.foldl addInterruption m).lookup id = some true ↔
      m.lookup id = some true ∨ ∃ r ∈ results, Preempts r id ∧ id ≠ "" := by
    induction results generalizing m with
    | nil => simp
    | cons r rest ih => simp only [List.foldl_cons, ih, addInterruption_lookup, List.exists_mem_cons_iff, or_assoc]
  refine (loop ∅).trans ?_
  simp

/-! ## What a report rests on -/

/-- The providers of a crew are adapters, over clouds that may answer anything. -/
def Crew.Adapters (crew : Crew) (command : Nat → String → Command) : Prop :=
  ∀ thread interruptions request reply, crew.answers thread interruptions request reply →
    Adapted (fun name => { command thread name with azureInterrupted := interruptions }) (fun _ => True)
      ⟨request, reply⟩

/-- Why a running record may be recorded as interrupted: its cycle observed all of its
    resources to be gone, with the signal of its cloud that names its machine. -/
structure Reports (crew : Crew) (command : Nat → String → Command) (log : Log) (thread : Nat) (r : Allocation) :
    Prop where
  running : r.phase = .running
  kept : r.retire = false
  spot : r.offering.spot = true
  observed : ∃ (interruptions : GoMap String Bool) (asked : Allocation) (ob : Observation)
      (reads : List (Exchange Provider.CloudCalls)), Kin asked r ∧ ob.absent none ∧
    .asked thread interruptions (.observe asked.offering.provider asked) (ob, none) ∈ log ∧
    (({ command thread r.offering.provider with azureInterrupted := interruptions } : Command).observe asked).Returns
      reads (ob, none) ∧
    ProvenAbsent { command thread r.offering.provider with azureInterrupted := interruptions } asked reads ∧
    Signalled { command thread r.offering.provider with azureInterrupted := interruptions } asked reads
  message : (command thread r.offering.provider).config.kind = "azure" → ∃ results m id,
    lastPolled thread log = some (.ok results) ∧ m ∈ results ∧ Preempts m id ∧
      equalFold id (azureVM (command thread r.offering.provider) r)

section Reports

variable {crew : Crew} {command : Nat → String → Command} {first maps : Maps} {log : Log} {thread : Nat}
  {r x stored : Allocation}

/-- The answer of an observation in the log is one of the adapter. -/
theorem Chronicle.observed (chronicle : Chronicle crew first log maps) (adapters : crew.Adapters command)
    {asked : Allocation} {ob : Observation} {e : Option GoError}
    (event : .asked thread interruptions (.observe asked.offering.provider asked) (ob, e) ∈ log) :
    ∃ reads, (({ command thread asked.offering.provider with azureInterrupted := interruptions } : Command).observe
      asked).Returns reads (ob, e) := by
  obtain ⟨recent, earlier, rfl⟩ := List.mem_iff_append.mp event
  obtain ⟨answers, _⟩ := chronicle.asked
  obtain ⟨trace, returned, _⟩ := adapters _ _ _ _ answers _ rfl
  obtain ⟨reads, _, run⟩ := Provider.reading_returns returned
  exact ⟨reads, run⟩

theorem Polled.message (polled : Polled crew log thread interruptions)
    (snapshot : interruptions.lookup id = some true) :
    ∃ results m, lastPolled thread log = some (.ok results) ∧ m ∈ results ∧ Preempts m id := by
  cases polled with
  | off | failed => cases snapshot
  | @read results last =>
    obtain ⟨m, member, preempts, _⟩ := interruptionsOf_lookup.mp snapshot
    exact ⟨results, m, last, member, preempts⟩

/-- A record gets the condition from the one before it, or from an observation of this one. -/
theorem Replaced.interrupted (replaced : Replaced crew maps log thread old (some stored))
    (condition : stored.condition = interruptedCondition) :
    ∃ r, old = some r ∧ (r.condition = interruptedCondition ∨ ∃ interruptions ob e,
      Observed log thread interruptions r ob e ∧ Polled crew log thread interruptions ∧ ob.absent e ∧
        r.phase = .running ∧ ob.interrupted = true ∧ stored.phase.terminal = true) := by
  cases replaced with
  | recorded pending fresh =>
    rw [fresh] at condition
    exact absurd condition (by decide)
  | @edited r x _ edit stores =>
    refine ⟨r, rfl, .inl ?_⟩
    rw [stores.saved] at condition
    obtain edit | rfl | rfl := edit
    · rw [edit.touched] at condition
      exact condition
    · exact condition
    · exact condition
  | @stepped c view r x _ interruptions writes held backed stores polled =>
    refine ⟨r, rfl, ?_⟩
    rw [stores.saved] at condition ⊢
    obtain kept | ⟨now, ob, e, cleared, rfl, absent, running, interrupted, ended⟩ :=
      writes_interrupted writes held condition
    · exact .inl kept
    · exact .inr ⟨interruptions, ob, e, backed, polled, absent, running, interrupted, ended⟩

/-- The observation of a running record was made of that record, and answered by its adapter. -/
theorem Observed.adapted {ob : Observation} {e : Option GoError} (observed : Observed log thread interruptions r ob e)
    (chronicle : Chronicle crew first log maps) (adapters : crew.Adapters command) (running : r.phase = .running)
    (absent : ob.absent e) :
    ∃ asked reads, Kin asked r ∧ r.retire = false ∧
      .asked thread interruptions (.observe asked.offering.provider asked) (ob, e) ∈ log ∧
      (({ command thread r.offering.provider with azureInterrupted := interruptions } : Command).observe asked).Returns
        reads (ob, e) := by
  have live : r.phase.terminal = false := by rw [running]; rfl
  cases observed with
  | reconcile creating kin event =>
    cases ((kin absent live).phase.symm.trans running).symm.trans creating
  | @observe asked kept kin event =>
    have kin := kin absent live
    obtain ⟨reads, run⟩ := chronicle.observed adapters event
    have provider : asked.offering.provider = r.offering.provider := by rw [kin.offering]
    rw [provider] at run
    exact ⟨asked, reads, kin, kin.retire.trans (kept (kin.phase.symm.trans running)), event, run⟩

theorem Replaced.reports (replaced : Replaced crew maps log thread old (some stored))
    (chronicle : Chronicle crew first log maps) (adapters : crew.Adapters command)
    (condition : stored.condition = interruptedCondition) :
    ∃ r, old = some r ∧ (r.condition = interruptedCondition ∨ Reports crew command log thread r) := by
  obtain ⟨r, rfl, kept | ⟨interruptions, ob, e, observed, polled, absent, running, interrupted, _⟩⟩ :=
    replaced.interrupted condition
  · exact ⟨r, rfl, .inl kept⟩
  obtain ⟨asked, reads, kin, kept, event, run⟩ := observed.adapted chronicle adapters running absent
  obtain ⟨rfl, known, gone⟩ := absent
  obtain ⟨spot, proven, signal⟩ := Provider.observed_interruption run known gone interrupted
  refine ⟨r, rfl, .inr ⟨running, kept, kin.offering ▸ spot,
    ⟨interruptions, asked, ob, reads, kin, ⟨rfl, known, gone⟩, event, run, proven, signal⟩, fun azure => ?_⟩⟩
  obtain ⟨id, snapshot, same⟩ := signal.azure azure
  obtain ⟨results, m, last, member, preempts⟩ := polled.message snapshot
  refine ⟨results, m, id, last, member, preempts, ?_⟩
  rw [azureVM, kin.id]
  exact same

/-- A record that has ended keeps its condition. -/
theorem Replaced.keeps (replaced : Replaced crew maps log thread (some r) (some stored))
    (ended : r.phase.terminal = true) : stored.condition = r.condition ∧ stored.phase = r.phase := by
  cases replaced with
  | @edited _ x _ edit stores =>
    rw [stores.saved]
    obtain edit | rfl | rfl := edit
    · rw [edit.touched]
      exact ⟨rfl, rfl⟩
    · exact ⟨rfl, rfl⟩
    · exact ⟨rfl, rfl⟩
  | stepped writes held =>
    rw [writes_live writes held] at ended
    cases ended

/-- A record with the condition has ended, if the one before it had. -/
theorem Replaced.ended (replaced : Replaced crew maps log thread old (some stored))
    (before : ∀ r, old = some r → r.condition = interruptedCondition → r.phase.terminal = true)
    (condition : stored.condition = interruptedCondition) : stored.phase.terminal = true := by
  obtain ⟨r, rfl, kept | ⟨_, _, _, _, _, _, _, _, ended⟩⟩ := replaced.interrupted condition
  · have ended := before r rfl kept
    rw [(replaced.keeps ended).2]
    exact ended
  · exact ended

/-- A message that preempts the virtual machine of an allocation. -/
def PreemptsVM (p : Command) (a : Allocation) (m : Interruption) : Prop :=
  m.err = none ∧ m.preempted = true ∧ equalFold m.resourceID (azureVM p a) = true

theorem Polled.preempted {p : Command} {m : Interruption} (polled : Polled crew log thread interruptions)
    (configured : (crew.calls thread).operator.azureInterruptions = true)
    (last : lastPolled thread log = some (.ok results)) (member : m ∈ results) (preempts : PreemptsVM p r m) :
    interruptions.lookup m.resourceID = some true := by
  cases polled with
  | off unset => cases configured.symm.trans unset
  | failed failed => cases last.symm.trans failed
  | read read =>
    cases last.symm.trans read
    obtain ⟨classified, preempted, named⟩ := preempts
    refine interruptionsOf_lookup.mpr ⟨m, member, ⟨classified, preempted, rfl⟩, fun empty => ?_⟩
    rw [empty, Provider.azureVM_named] at named
    cases named

/-- An absence is recorded as an interruption if the cycle that observed it had polled the
    message. -/
theorem Replaced.preempted {m : Interruption} (replaced : Replaced crew maps log thread (some r) (some stored))
    (chronicle : Chronicle crew first log maps) (adapters : crew.Adapters command) (running : r.phase = .running)
    (deleted : stored.phase = .deleted) (azure : (command thread r.offering.provider).config.kind = "azure")
    (spot : r.offering.spot = true) (configured : (crew.calls thread).operator.azureInterruptions = true)
    (last : lastPolled thread log = some (.ok results)) (member : m ∈ results)
    (preempts : PreemptsVM (command thread r.offering.provider) r m) : stored.condition = interruptedCondition := by
  cases replaced with
  | @edited _ x _ edit stores =>
    rw [stores.saved] at deleted
    have same : x.phase = r.phase := by
      obtain edit | rfl | rfl := edit
      · rw [edit.touched]
      · rfl
      · rfl
    cases (running.symm.trans same.symm).trans deleted
  | @stepped c view _ x _ interruptions writes held backed stores polled =>
    rw [stores.saved] at deleted ⊢
    obtain ⟨now, ob, e, cleared, rfl, absent, text⟩ := writes_released writes held running deleted
    have observed : Observed log thread interruptions r ob e := backed
    obtain ⟨asked, reads, kin, _, _, run⟩ := observed.adapted chronicle adapters running absent
    obtain ⟨rfl, known, gone⟩ := absent
    have snapshot := polled.preempted configured last member preempts
    have interrupted : ob.interrupted = true := by
      obtain ⟨kind, inner⟩ | ⟨kind, inner⟩ | ⟨_, other, _⟩ := Provider.observe_cases run known
      · exact absurd (azure.symm.trans kind) (by decide)
      · refine Provider.observeAzure_confirmed inner known gone ?_ snapshot ?_
        · rw [← kin.offering]
          exact spot
        · rw [azureVM, ← kin.id]
          exact preempts.2.2
      · exact absurd azure other
    change x.condition = interruptedCondition
    rw [text, absentCondition, interrupted]
    rfl

end Reports

/-! ## Whole runs -/

/-- The record of an interrupted allocation has ended. -/
def InterruptedEnded (maps : Maps) : Prop :=
  ∀ id r, maps.record id = some r → r.condition = interruptedCondition → r.phase.terminal = true

section Runs

variable {crew : Crew} {command : Nat → String → Command} {first before after maps : Maps} {log : Log} {thread : Nat}

/-- What a write makes of one record. -/
theorem Wrote.record_cases (wrote : Wrote crew log thread before after) (id : String) :
    after.record id = before.record id ∨ Replaced crew before log thread (before.record id) (after.record id) := by
  cases wrote with
  | fleet records => exact .inl (by rw [records])
  | @record other new records fleet reason =>
    by_cases same : id = other
    · subst same
      rw [records, Function.update_self]
      exact .inr reason
    · rw [records, Function.update_of_ne same]
      exact .inl rfl

theorem Wrote.reports (wrote : Wrote crew log thread before after) (chronicle : Chronicle crew first log before)
    (adapters : crew.Adapters command) {stored : Allocation} (found : after.record id = some stored)
    (condition : stored.condition = interruptedCondition) :
    ∃ r, before.record id = some r ∧ (r.condition = interruptedCondition ∨ Reports crew command log thread r) := by
  obtain same | replaced := wrote.record_cases id
  · exact ⟨stored, same.symm.trans found, .inl condition⟩
  · rw [found] at replaced
    exact replaced.reports chronicle adapters condition

theorem Wrote.keeps (wrote : Wrote crew log thread before after) (ended : InterruptedEnded before)
    {r stored : Allocation} (old : before.record id = some r) (condition : r.condition = interruptedCondition)
    (found : after.record id = some stored) : stored.condition = r.condition ∧ stored.phase = r.phase := by
  obtain same | replaced := wrote.record_cases id
  · rw [found, old] at same
    cases same
    exact ⟨rfl, rfl⟩
  · rw [found, old] at replaced
    exact replaced.keeps (ended id r old condition)

/-- Every write keeps the records of interrupted allocations ended. -/
theorem Wrote.interruptedEnded (wrote : Wrote crew log thread before after) (ended : InterruptedEnded before) :
    InterruptedEnded after := by
  intro id stored found condition
  obtain same | replaced := wrote.record_cases id
  · exact ended id stored (same.symm.trans found) condition
  · rw [found] at replaced
    exact replaced.ended (ended id) condition

theorem Chronicle.interruptedEnded (chronicle : Chronicle crew first log maps) (ended : InterruptedEnded first) :
    InterruptedEnded maps := by
  induction chronicle with
  | opened => exact ended
  | event _ _ ih => exact ih
  | wrote _ reason ih => exact reason.interruptedEnded ih

/-- An allocation is recorded as interrupted only on the signal of its cloud, in the
    cycle that observed its resources to be gone, and it stays recorded so. -/
theorem interruption_only_on_signal {system : System Api Site Capacity.Outcome} (adapters : crew.Adapters command)
    (run : crew.Run first system) (ended : InterruptedEnded first) :
    ∀ recent thread before after earlier, system.world.history = recent ++ .wrote thread before after :: earlier →
      ∀ id,
        (∀ stored, after.record id = some stored → stored.condition = interruptedCondition →
          ∃ r, before.record id = some r ∧
            (r.condition = interruptedCondition ∨ Reports crew command earlier thread r)) ∧
        ∀ r, before.record id = some r → r.condition = interruptedCondition →
          ∀ stored, after.record id = some stored → stored.condition = interruptedCondition := by
  intro recent thread before after earlier log id
  have chronicle := (run_kept run).chronicle
  rw [log] at chronicle
  obtain ⟨until_, wrote⟩ := chronicle.written
  refine ⟨fun stored found condition => wrote.reports until_ adapters found condition, ?_⟩
  intro r old condition stored found
  exact (wrote.keeps (until_.interruptedEnded ended) old condition found).1.trans condition

/-- The write by which a cycle ends a running spot machine of Azure as absent records the
    interruption if and only if that cycle's own poll classified a message that preempts
    the machine. -/
theorem preemption_recorded_by_its_cycle {system : System Api Site Capacity.Outcome}
    (adapters : crew.Adapters command) (run : crew.Run first system) :
    ∀ recent thread before after earlier, system.world.history = recent ++ .wrote thread before after :: earlier →
      ∀ id r stored, before.record id = some r → after.record id = some stored → r.phase = .running →
        stored.phase = .deleted → (command thread r.offering.provider).config.kind = "azure" →
        r.offering.spot = true → (crew.calls thread).operator.azureInterruptions = true →
        let Classified := ∃ results, lastPolled thread earlier = some (.ok results) ∧
          ∃ m ∈ results, PreemptsVM (command thread r.offering.provider) r m
        (Classified → stored.condition = interruptedCondition) ∧
          (InterruptedEnded first → stored.condition = interruptedCondition → Classified) := by
  intro recent thread before after earlier log id r stored old found running deleted azure spot configured
  have chronicle := (run_kept run).chronicle
  rw [log] at chronicle
  obtain ⟨until_, wrote⟩ := chronicle.written
  refine ⟨fun ⟨results, last, m, member, preempts⟩ => ?_, fun ended condition => ?_⟩
  · obtain same | replaced := wrote.record_cases id
    · rw [found, old] at same
      cases same
      cases running.symm.trans deleted
    · rw [found, old] at replaced
      exact replaced.preempted until_ adapters running deleted azure spot configured last member preempts
  · obtain ⟨_, known, interrupted | reports⟩ := wrote.reports until_ adapters found condition
    all_goals cases old.symm.trans known
    -- an interrupted record has ended, and this one was running
    · have terminal := until_.interruptedEnded ended id r old interrupted
      rw [running] at terminal
      cases terminal
    · obtain ⟨results, m, vm, last, member, ⟨classified, preempted, rfl⟩, same⟩ := reports.message azure
      exact ⟨results, last, m, member, classified, preempted, same⟩

end Runs

/-! ## A spot machine in Azure -/

open Provider (AdapterRequest AdapterReply azureCommand exhaustedZone noCapacity)

def spotRecord : Allocation where
  id := "runner-1"
  phase := .running
  deadline := 1000 * second
  maxAttempts := 3
  ready := true
  resourceID := azureVM azureCommand { id := "runner-1" }
  offering := { id := "pool", provider := "azure", region := "eastus", zone := "1", spot := true }

/-- The fleet and the record of one running machine. -/
def spotMaps : Maps :=
  ((∅ : Maps).insert "ci-fleet"
    { name := "ci-fleet", resourceVersion := 1,
      labels := AList.singleton ownerLabel "ci",
      data := AList.singleton "fleet" (.fleet { created := AList.singleton "runner-1" second }) }).insert
    "runner-1" ((⟨"ci"⟩ : Kubernetes).encode spotRecord 2)

/-- Azure refuses to answer, or answers that nothing is there. -/
def spotCloud (answers : Bool) : (request : AdapterRequest) → AdapterReply request
  | .read (.deploymentGet _) =>
    if answers then .error { text := "no deployment", api := true, status := 404, code := "DeploymentNotFound" }
    else .error { text := "throttled" }
  | .read (.getByID _ _) => .error { text := "no resource", api := true, status := 404, code := "ResourceNotFound" }
  | .read .listByResourceGroup => [.ok (some [])]
  | request => exhaustedZone noCapacity request

/-- The provider calls of a cycle, answered by the adapter. -/
def spotReply (answers : Bool) : (request : ApiRequest) → ApiReply request
  | .provider interruptions (.create _ a) =>
    ((({ azureCommand with azureInterrupted := interruptions } : Command).create a).respond (spotCloud answers)).2
  | .provider interruptions (.createWithResources _ a) =>
    ((({ azureCommand with azureInterrupted := interruptions } : Command).createWithResources a).respond
      (spotCloud answers)).2
  | .provider interruptions (.observe _ a) =>
    ((Provider.reading (({ azureCommand with azureInterrupted := interruptions } : Command).observe a)).respond
      (spotCloud answers)).2
  | .provider interruptions (.reconcileCreation _ a) =>
    ((Provider.reading (({ azureCommand with azureInterrupted := interruptions } : Command).reconcileCreation a)).respond
      (spotCloud answers)).2
  | .provider interruptions (.delete _ a) =>
    ((({ azureCommand with azureInterrupted := interruptions } : Command).delete a).respond (spotCloud answers)).2
  | request => silence request

theorem spotReply_adapted (answers : Bool) (interruptions : GoMap String Bool) (request : Request) :
    Adapted (fun _ => { azureCommand with azureInterrupted := interruptions }) (fun _ => True)
      ⟨request, spotReply answers (.provider interruptions request)⟩ := by
  intro program call
  cases request with
  | load | save | now | deregisterRunner => cases call
  | create | createWithResources | observe | reconcileCreation | delete =>
    cases call
    exact ⟨_, Program.returns_respond _ _, fun _ _ => trivial⟩

def spotOperator : Operator :=
  { creatingOperator with
    azureInterruptions := true
    controller := { providers := AList.singleton "azure" ⟨true, true⟩ } }

def spotCrew : Crew where
  name := "ci"
  calls := fun _ => .tick spotOperator
  named := fun _ => rfl
  together := System.serial
  distinct := fun _ overlap => overlap
  answers := fun _ interruptions request reply =>
    Adapted (fun _ => { azureCommand with azureInterrupted := interruptions }) (fun _ => True) ⟨request, reply⟩

/-- The message is polled in the first cycle only, and Azure answers from cycle `silent` on. -/
def spotScript (silent thread : Nat) (request : ApiRequest) (_ : Site) : ApiReply request :=
  match request with
  | .pollInterruptions =>
    .ok (if thread = 0 then [{ resourceID := azureVM azureCommand spotRecord, preempted := true }] else [])
  | request => spotReply (silent ≤ thread) request

def spotStart : Site := { maps := spotMaps, version := 2, history := [] }

/-- Some cycles over the machine. -/
def spotRun (silent : Nat) (turns : List (Nat × Nat)) : System Api Site Capacity.Outcome :=
  spotCrew.played
    (spotCrew.script (fun _ _ => 2 * second) (spotScript silent) fun _ interruptions request _ =>
      spotReply_adapted _ interruptions request)
    turns spotStart

theorem spotStart_initial : Initial spotCrew spotMaps spotStart where
  wellFormed := by
    intro key cm found
    change spotMaps.lookup key = some cm at found
    unfold spotMaps at found
    by_cases record : key = "runner-1"
    · subst record
      rw [AList.lookup_insert] at found
      cases found
      exact ⟨rfl, by decide, by decide, .inr ⟨by decide, spotRecord, ⟨rfl, [], false, rfl⟩, rfl, rfl⟩⟩
    rw [AList.lookup_insert_ne record] at found
    by_cases fleet : key = "ci-fleet"
    · subst fleet
      rw [AList.lookup_insert] at found
      cases found
      exact ⟨rfl, by decide, by decide, .inl ⟨rfl, rfl, rfl, rfl, rfl, _, rfl⟩⟩
    · rw [AList.lookup_insert_ne fleet] at found
      cases found
  maps := rfl
  history := rfl
  pending := by
    intro id a found
    cases found

theorem spotMaps_ended : InterruptedEnded spotMaps := by
  intro id r found condition
  unfold Maps.record spotMaps at found
  by_cases record : id = "runner-1"
  · subst record
    rw [AList.lookup_insert] at found
    cases found
    exact absurd condition (show "" ≠ interruptedCondition by decide)
  rw [AList.lookup_insert_ne record] at found
  by_cases fleet : id = "ci-fleet"
  · subst fleet
    rw [AList.lookup_insert] at found
    cases found
  · rw [AList.lookup_insert_ne fleet] at found
    cases found

theorem spotRun_run (silent : Nat) (turns : List (Nat × Nat)) : spotCrew.Run spotMaps (spotRun silent turns) :=
  Crew.played_run _ _ _ spotStart_initial

theorem spotCrew_adapters : spotCrew.Adapters fun _ _ => azureCommand :=
  fun _ _ _ _ answers => answers

/-- The run in which Azure answers the cycle that polled the message. -/
def promptRun : System Api Site Capacity.Outcome := spotRun 0 [(0, 100)]

/-- The latest event of a log, if it is a write. -/
def lastWrite : Log → Option (Nat × Maps × Maps × Log)
  | .wrote thread before after :: earlier => some (thread, before, after, earlier)
  | _ => none

theorem lastWrite_eq {log earlier : Log} {thread : Nat} {before after : Maps}
    (last : lastWrite log = some (thread, before, after, earlier)) : log = .wrote thread before after :: earlier := by
  unfold lastWrite at last
  split at last
  · cases last
    rfl
  · cases last

/-- The first cycle ends a running spot machine. -/
def endsSpot (w : Nat × Maps × Maps × Log) : Bool :=
  w.1 = 0 && (w.2.1.record "runner-1").any (fun r => r.id = "runner-1" && r.phase = .running && r.offering.spot) &&
    (w.2.2.1.record "runner-1").any (fun stored => stored.phase = .deleted) &&
    lastPolled 0 w.2.2.2 = some (.ok [{ resourceID := azureVM azureCommand spotRecord, preempted := true }])

theorem preemption_recorded_by_its_cycle_promptRun :
    ∃ before after earlier r stored, promptRun.world.history = .wrote 0 before after :: earlier ∧
      before.record "runner-1" = some r ∧ r.phase = .running ∧ after.record "runner-1" = some stored ∧
      stored.condition = interruptedCondition := by
  have ends : (lastWrite promptRun.world.history).any endsSpot = true := by decide +kernel
  obtain ⟨⟨thread, before, after, earlier⟩, last, holds⟩ := (Option.any_eq_true _ _).mp ends
  simp only [endsSpot, Bool.and_eq_true, decide_eq_true_eq] at holds
  obtain ⟨⟨⟨rfl, old⟩, new⟩, polled⟩ := holds
  obtain ⟨r, found, facts⟩ := (Option.any_eq_true _ _).mp old
  obtain ⟨stored, stores, deleted⟩ := (Option.any_eq_true _ _).mp new
  simp only [Bool.and_eq_true, decide_eq_true_eq] at facts deleted
  obtain ⟨⟨named, running⟩, spot⟩ := facts
  have log := lastWrite_eq last
  refine ⟨before, after, earlier, r, stored, log, found, running, stores, ?_⟩
  refine (preemption_recorded_by_its_cycle spotCrew_adapters (spotRun_run 0 [(0, 100)]) [] 0 before after earlier log
    "runner-1" r stored found stores running deleted rfl spot rfl).1
      ⟨_, polled, _, List.mem_singleton_self _, rfl, rfl, ?_⟩
  rw [azureVM, azureVM, named]
  decide +kernel

theorem interruption_only_on_signal_promptRun :
    (promptRun.world.record "runner-1").any (fun r => r.condition = interruptedCondition) = true ∧
      ∀ recent thread before after earlier, promptRun.world.history = recent ++ .wrote thread before after :: earlier →
        ∀ stored, after.record "runner-1" = some stored → stored.condition = interruptedCondition →
          ∃ r, before.record "runner-1" = some r ∧
            (r.condition = interruptedCondition ∨ Reports spotCrew (fun _ _ => azureCommand) earlier thread r) := by
  refine ⟨by decide +kernel, fun recent thread before after earlier log => ?_⟩
  exact (interruption_only_on_signal spotCrew_adapters (spotRun_run 0 [(0, 100)]) spotMaps_ended recent thread before after earlier
    log "runner-1").1

/-- The run in which Azure answers the next cycle only. -/
def lateRun : System Api Site Capacity.Outcome := spotRun 1 [(0, 100), (1, 100)]

def Event.polls (p : Command) (a : Allocation) : Event → Bool
  | .polled _ (.ok [m]) => m.err.isNone && m.preempted && equalFold m.resourceID (azureVM p a)
  | _ => false

/-- The message is polled by a cycle that Azure does not answer, and forgotten by the next
    one, which finds the running machine gone. -/
theorem preemption_lost :
    spotCrew.Adapters (fun _ _ => azureCommand) ∧ spotCrew.Run spotMaps lateRun ∧
      lateRun.world.history.any (Event.polls azureCommand spotRecord) = true ∧
      (lateRun.world.record "runner-1").map (fun r => (r.phase, r.condition)) =
        some (.deleted, "ResourceAbsentInterruptionUnproven") :=
  ⟨spotCrew_adapters, spotRun_run 1 _, by decide +kernel, by decide +kernel⟩

end RunnerScout.Ticks
