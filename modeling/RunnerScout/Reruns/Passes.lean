import RunnerScout.Reruns.Machine
import RunnerScout.State.Operations
import RunnerScout.State.Replay

/-! # The retry passes of a scale set

Any sequence of passes, each of which may die between any two of its calls and any of
whose writes may fail, over a cluster in which the rest of the operator goes on: it
may store, change and delete records and rewrite the fleet, but leaves the two maps
and the processed flags to the passes.

`run_reachable`: whatever the passes do is a run of the machine.
-/

namespace RunnerScout.Reruns

open Interaction Program Lifecycle Operator Recovery RunnerScout.State

variable {a x : Allocation} {id name : String} {before : Maps} {f : Fleet}

/-- The passes of one scale set, and what is asked of their runs. -/
structure Passes where
  name : String
  operators : Nat → Operator
  named : ∀ thread, (operators thread).config.name = name
  conditions : Conditions := {}
  limits : ∀ thread, conditions.limits (operators thread).config.retry.maxRetries

abbrev Site := World Log

/-- What the history keeps of a call outside the cluster. -/
def Log.answer (log : Log) : (request : ApiRequest) → ApiReply request → Log
  | .note .started, _ => log.add .started
  | .note (.classified run attempt outcome), _ => log.add (.classified run attempt outcome)
  | .note (.requesting id run attempt), _ => { log with asking := (id, run, attempt) }
  | .attemptJobs _ _ run attempt, reply => log.read run attempt reply
  | .rerunFailedJobs _ _ run, reply => log.post run reply
  | _, _ => log

def Conditions.allow (c : Conditions) (log : Log) : (request : ApiRequest) → ApiReply request → Prop
  | .attemptJobs _ _ run attempt, reply => c.answers log run attempt reply
  | _, _ => True

/-- At most one unprocessed interruption of a run. -/
def Unshared (run : Int) (record : String → Option Allocation) : Prop :=
  ∀ id other a b, record id = some a → record other = some b → interrupted a = true → interrupted b = true →
    a.runID = run → b.runID = run → id = other

namespace Passes

variable (p : Passes)

def rules : Rules Log where
  name := p.name
  clock := fun _ _ => True
  removable := fun _ _ => True
  wrote := fun _ before after log => log.wrote p.name before after
  outside := fun _ log request reply after => p.conditions.allow log request reply ∧ after = log.answer request reply

def starts (thread : Nat) (program : Program Api (Option GoError)) : Prop :=
  program = (p.operators thread).processInterruptionRetries

structure Initial (w : Site) : Prop where
  wellFormed : WellFormed p.name w
  history : w.history = {}
  unused : book (w.fleet p.name) = {}
  unprocessed : ∀ id r, w.record id = some r → r.retryProcessed = false
  single : ∀ run, p.conditions.single run → Unshared run w.record

/-- The rest of the operator, and GitHub. -/
structure Surroundings (w after : Site) : Prop where
  wellFormed : WellFormed p.name after
  evolves : Evolves w after
  maps : book (after.fleet p.name) = book (w.fleet p.name)
  processed : ∀ id r, after.record id = some r → (r.retryProcessed = true ↔ Marked w.history.events id)
  single : ∀ run, p.conditions.single run → Unshared run after.record
  history : after.history = w.history ∨
    ∃ run attempt, (run, attempt) ∈ w.history.outstanding ∧ after.history = w.history.land run attempt

abbrev Run (system : System Api Site (Option GoError)) : Prop :=
  System.Reachable p.rules.semantics p.Surroundings p.starts System.serial p.Initial system

/-! ## What a run keeps -/

def At (stage : Stage) (w : Site) : Prop := Reachable p.conditions p.name ⟨stage, w.history⟩

structure Kept (w : Site) : Prop where
  wellFormed : WellFormed p.name w
  stored : book (w.fleet p.name) = w.history.stored
  processed : ∀ id r, w.record id = some r → (r.retryProcessed = true ↔ Marked w.history.events id)
  single : ∀ run, p.conditions.single run → Unshared run w.record
  staged : ∃ stage, p.At stage w

/-- What the surroundings leave to the pass under way. -/
structure Undisturbed (w after : Site) : Prop where
  evolves : Evolves w after
  events : after.history.events = w.history.events
  asking : after.history.asking = w.history.asking
  stages : ∀ stage, p.At stage w → p.At stage after

def rely : Rely Site where
  invariant := p.Kept
  rely := fun _ => p.Undisturbed
  together := System.serial
  refl := fun _ w => ⟨.refl w, rfl, rfl, fun _ staged => staged⟩
  trans := fun _ _ _ _ earlier later =>
    ⟨earlier.evolves.trans later.evolves, later.events.trans earlier.events, later.asking.trans earlier.asking,
      fun stage staged => later.stages stage (earlier.stages stage staged)⟩

abbrev Triple (thread : Nat) {α : Type} (pre : Site → Prop) (program : Program Api α) (post : α → Site → Prop) : Prop :=
  p.rely.Triple p.rules.semantics thread pre program post

/-- What a pass that returned no error leaves behind. -/
def Ended (thread : Nat) (result : Option GoError) (w : Site) : Prop :=
  result = none → (p.operators thread).gitHubJobs = true ∧ (p.operators thread).config.retry.enabled = true →
    finished w.history.events = true

theorem respects : Respects p.rules p.rely := ⟨fun _ kept => kept.wellFormed, fun _ _ _ relied => relied.evolves⟩

/-- Allocations that were listed and have not had their turn, and maps that were read. -/
structure Waiting (maps : List ConfigMap) (allocs : List Allocation) (w : Site) : Prop where
  records : ∀ a ∈ allocs, RecordSeen a w ∧ ¬ Marked w.history.events a.id
  maps : ∀ cm ∈ maps, Seen cm w

/-- Waiting allocations are passed on by whatever marks none of them. -/
theorem Waiting.later {maps : List ConfigMap} {allocs : List Allocation} {w after : Site} (waiting : Waiting maps allocs w)
    (evolves : Evolves w after) (unmarked : ∀ a ∈ allocs, Marked after.history.events a.id → Marked w.history.events a.id) :
    Waiting maps allocs after :=
  ⟨fun a member => ⟨(waiting.records a member).1.evolves evolves,
    fun marked => (waiting.records a member).2 (unmarked a member marked)⟩,
    fun cm member => (waiting.maps cm member).evolves evolves⟩

theorem Waiting.tail {maps : List ConfigMap} {rest : List Allocation} {w : Site}
    (waiting : Waiting maps (a :: rest) w) : Waiting maps rest w :=
  ⟨fun other member => waiting.records other (List.mem_cons_of_mem _ member), waiting.maps⟩

theorem at_stable (thread : Nat) (stage : Stage) : p.rely.Stable thread (p.At stage) :=
  fun _ _ _ relied staged => relied.stages stage staged

theorem waiting_stable (thread : Nat) (maps : List ConfigMap) (allocs : List Allocation) :
    p.rely.Stable thread (Waiting maps allocs) := fun _ _ _ relied waiting =>
  waiting.later relied.evolves fun _ _ marked => relied.events ▸ marked

end Passes

/-! ## Marks -/

theorem marked_cons {e : Event} {events : List Event} :
    Marked (e :: events) id ↔ e.marks id ∨ Marked events id := by
  simp [Marked]

/-- A call outside the cluster marks nothing. -/
theorem marked_answer (log : Log) (request : ApiRequest) (reply : ApiReply request) (id : String) :
    Marked (log.answer request reply).events id ↔ Marked log.events id := by
  have plain (e : Event) (write : ∀ before after, ¬ (e = .saved before after ∨ e = .recorded before after)) :
      Marked (e :: log.events) id ↔ Marked log.events id := by
    rw [marked_cons, or_iff_right]
    rintro ⟨before, after, wrote, _⟩
    exact write before after wrote
  cases request with
  | note event => cases event <;> first | rfl | exact plain _ (by simp)
  | attemptJobs owner repo run attempt => exact plain _ (by simp)
  | rerunFailedJobs owner repo run => exact plain _ (by simp)
  | getMap | createMap | updateMap | deleteMap | listMaps | now | newUUID | readCatalog | observePrice
  | pollInterruptions | provider | deregisterRunner | rangeOrder | schedule => rfl

theorem stored_answer (log : Log) (request : ApiRequest) (reply : ApiReply request) :
    (log.answer request reply).stored = log.stored := by
  cases request with
  | note event => cases event <;> rfl
  | attemptJobs | rerunFailedJobs | getMap | createMap | updateMap | deleteMap | listMaps | now | newUUID
  | readCatalog | observePrice | pollInterruptions | provider | deregisterRunner | rangeOrder | schedule => rfl

/-- A write that leaves the flag of a record alone does not mark it. -/
theorem not_marks {after : Maps} {e : Event} (event : e = .saved before after ∨ e = .recorded before after)
    (same : after.record id = before.record id) : ¬ e.marks id := by
  rintro ⟨before', after', event', ⟨r, found, processed⟩, unprocessed⟩
  have equal : before' = before ∧ after' = after := by
    obtain rfl | rfl := event <;> obtain same | same := event' <;> cases same <;> exact ⟨rfl, rfl⟩
  obtain ⟨rfl, rfl⟩ := equal
  rw [same] at found
  simp [unprocessed r found] at processed

/-! ## Calls and writes as steps -/

section Steps

variable {p : Passes} {thread : Nat} {w after : Site} {stage : Stage} {allocs : List Allocation} {maps : List ConfigMap}

/-- A call outside the cluster is a step of the machine. -/
theorem ask_triple {request : ApiRequest} {pre : Site → Prop} (post : ApiReply request → Site → Prop)
    (external : ∀ w reply after, p.rules.semantics thread w request reply after →
      ∃ history, p.rules.outside thread w.history request reply history ∧ after = { w with history := history })
    (stable : p.rely.Stable thread pre)
    (step : ∀ w reply, p.Kept w → pre w → p.conditions.allow w.history request reply →
      (∃ stage, Reachable p.conditions p.name ⟨stage, w.history.answer request reply⟩) ∧
        post reply { w with history := w.history.answer request reply }) :
    p.Triple thread (fun w => pre w ∧ Passes.Waiting maps allocs w) (ask (S := Api) request)
      fun reply w => post reply w ∧ Passes.Waiting maps allocs w := by
  refine .request (stable.and (p.waiting_stable thread maps allocs)) fun w reply after kept ⟨holds, waiting⟩ executed => ?_
  obtain ⟨history, ⟨allowed, rfl⟩, rfl⟩ := external w reply after executed
  obtain ⟨reached, ended⟩ := step w reply kept holds allowed
  have marked := marked_answer w.history request reply
  refine ⟨⟨kept.wellFormed, ?_, fun id r found => ?_, kept.single, reached⟩, fun _ overlap => overlap.elim, ended,
    waiting.later ⟨Nat.le_refl _, fun _ _ found => .inl found⟩ fun a _ => (marked a.id).mp⟩
  · rw [stored_answer]
    exact kept.stored
  · rw [marked]
    exact kept.processed id r found

theorem ask_step {request : ApiRequest} {stage : Stage} {next : ApiReply request → Stage}
    (external : ∀ w reply after, p.rules.semantics thread w request reply after →
      ∃ history, p.rules.outside thread w.history request reply history ∧ after = { w with history := history })
    (step : ∀ log reply, p.conditions.allow log request reply →
      Step p.conditions p.name ⟨stage, log⟩ ⟨next reply, log.answer request reply⟩) :
    p.Triple thread (fun w => p.At stage w ∧ Passes.Waiting maps allocs w)
      (ask (S := Api) request) fun reply w => p.At (next reply) w ∧ Passes.Waiting maps allocs w :=
  ask_triple _ external (p.at_stable thread stage) fun w reply _ staged allowed =>
    have reached := staged.step (step w.history reply allowed)
    ⟨⟨_, reached⟩, reached⟩

/-- A write that leaves the fleet's map where it is. -/
theorem wrote_other {after : Maps} {log : Log} (same : after.lookup (fleetName name) = before.lookup (fleetName name)) :
    log.wrote name before after = log.add (.recorded before after) := by
  unfold Log.wrote
  rw [same]
  cases before.lookup (fleetName name) with
  | none => rfl
  | some cm => exact if_pos rfl

/-- A write that replaces the fleet. -/
theorem wrote_fleet {after : Maps} {log : Log} {old new : ConfigMap}
    (former : before.lookup (fleetName name) = some old) (latter : after.lookup (fleetName name) = some new)
    (newer : old.resourceVersion < new.resourceVersion) :
    log.wrote name before after = { log.add (.saved before after) with stored := book (after.fleet name) } := by
  unfold Log.wrote
  rw [former, latter]
  exact if_neg (Nat.ne_of_lt newer)

/-- The two forms in which a pass stores a record. -/
theorem interrupted_of_processed {stored : Allocation} (same : x = a ∨ x = { a with retryProcessed := true })
    (saved : Saved x stored) (still : interrupted stored = true) : interrupted a = true := by
  rw [Saved] at saved
  rw [saved] at still
  obtain rfl | rfl := same
  · exact still
  · simp [interrupted] at still

/-- Storing a record in its turn. -/
theorem record_saved {stored : Allocation} (kept : p.Kept w) (staged : p.At stage w)
    (waiting : Passes.Waiting maps allocs w) (seen : RecordSeen a w) (unmarked : ¬ Marked w.history.events a.id)
    (same : x = a ∨ x = { a with retryProcessed := true }) (apart : ∀ b ∈ allocs, b.id ≠ a.id) (writes : stage.Writes)
    (passed : ∀ turn ∈ stage.todo, turn.1 ≠ a.id) (saved : RecordSaved p.rules thread w x a.revision stored after) :
    p.Kept after ∧ p.At stage after ∧ Passes.Waiting maps allocs after := by
  obtain ⟨record, found, stores, newer, canonical, rfl⟩ := saved
  have named : x.id = a.id := by obtain rfl | rfl := same <;> rfl
  rw [named] at found
  obtain rfl : record = a := seen.2.2 record found stores.current
  have own : stored.id = record.id := stores.id_eq
  have notFleet : stored.id ≠ fleetName p.name := own ▸ (kept.wellFormed.lookup_of_record found).1
  have records := @putRecord_record stored _ p.rules thread w canonical
  have others (id : String) (different : id ≠ record.id) :
      (putRecord p.rules thread w stored).record id = w.record id := by
    rw [records, Function.update_of_ne (own.symm ▸ different)]
  have here : (putRecord p.rules thread w stored).record record.id = some stored := by
    rw [records, ← own, Function.update_self]
  have evolves : Evolves w (putRecord p.rules thread w stored) := evolves_write newer rfl
  have history : (putRecord p.rules thread w stored).history =
      w.history.add (.recorded w.maps (putRecord p.rules thread w stored).maps) :=
    wrote_other (AList.lookup_insert_ne (Ne.symm notFleet))
  have quiet (id : String) (different : id ≠ record.id) :
      ¬ (Event.recorded w.maps (putRecord p.rules thread w stored).maps).marks id :=
    not_marks (.inr rfl) (others id different)
  have staged : p.At stage (putRecord p.rules thread w stored) := by
    unfold Passes.At
    rw [history]
    exact staged.step (.record writes fun turn member => quiet _ (passed turn member))
  have content := stores.saved
  refine ⟨⟨wellFormed_write kept.wellFormed newer (putRecord_genuine notFleet canonical ?_), ?_, fun id r stands => ?_,
    fun run only => ?_, stage, staged⟩, staged, waiting.later evolves fun b member => ?_⟩
  · exact Nat.ne_of_gt (Nat.zero_lt_of_lt newer)
  · rw [history, show (putRecord p.rules thread w stored).fleet p.name = w.fleet p.name from putRecord_fleet notFleet]
    exact kept.stored
  · rw [history]
    change _ ↔ Marked (_ :: w.history.events) id
    rw [marked_cons]
    by_cases mine : id = record.id
    · subst mine
      rw [here] at stands
      cases stands
      have before : record.retryProcessed = false := by
        rw [← Bool.not_eq_true, kept.processed _ record found]
        exact unmarked
      rw [or_iff_left unmarked]
      constructor
      · exact fun flag => ⟨_, _, .inr rfl, ⟨stored, here, flag⟩, fun r stood => by
          rw [show w.maps.record record.id = some record from found] at stood
          cases stood
          exact before⟩
      · rintro ⟨_, _, impossible | event, ⟨r, stands, flag⟩, _⟩
        · cases impossible
        cases event
        cases here.symm.trans stands
        exact flag
    · rw [or_iff_right (quiet id mine)]
      rw [others id mine] at stands
      exact kept.processed id r stands
  · -- a record that still counts as interrupted was so before
    have was (id : String) (r : Allocation) (stands : (putRecord p.rules thread w stored).record id = some r)
        (still : interrupted r = true) : ∃ r', w.record id = some r' ∧ interrupted r' = true ∧ r'.runID = r.runID := by
      by_cases mine : id = record.id
      · subst mine
        rw [here] at stands
        cases stands
        refine ⟨record, found, interrupted_of_processed same content still, ?_⟩
        rw [Saved] at content
        rw [content]
        obtain rfl | rfl := same <;> rfl
      · exact ⟨r, (others id mine) ▸ stands, still, rfl⟩
    intro id other r r' stands stands' still still' ofRun ofRun'
    obtain ⟨b, found, interrupted, equal⟩ := was id r stands still
    obtain ⟨b', found', interrupted', equal'⟩ := was other r' stands' still'
    exact kept.single run only id other b b' found found' interrupted interrupted' (equal.trans ofRun)
      (equal'.trans ofRun')
  · rw [history]
    exact (marked_cons.trans (or_iff_right (quiet b.id (apart b member)))).mp

theorem fleet_opened (kept : p.Kept w) (staged : p.At .listing w) (waiting : Passes.Waiting maps allocs w)
    (opened : FleetOpened p.rules thread w after) : p.Kept after ∧ p.At .listing after ∧ Passes.Waiting maps allocs after := by
  have records := opened.record kept.wellFormed
  have history : after.history = w.history.add (.recorded w.maps after.maps) := by
    obtain ⟨absent, version, newer, rfl⟩ := opened
    change w.history.wrote p.name w.maps _ = _
    unfold Log.wrote
    rw [show w.maps.lookup (fleetName p.name) = none from absent]
    rfl
  have quiet (id : String) : ¬ (Event.recorded w.maps after.maps).marks id :=
    not_marks (.inr rfl) (congrFun records id)
  have marked (id : String) : Marked after.history.events id ↔ Marked w.history.events id := by
    rw [history]
    exact marked_cons.trans (or_iff_right (quiet id))
  have staged : p.At .listing after := by
    unfold Passes.At
    rw [history]
    exact staged.step (.record trivial fun turn member => quiet _)
  refine ⟨⟨opened.wellFormed kept.wellFormed, ?_, fun id r found => ?_, fun run only => ?_, _, staged⟩, staged,
    waiting.later opened.evolves fun a _ => (marked a.id).mp⟩
  · rw [show after.fleet p.name = w.fleet p.name from opened.fleet, history]
    exact kept.stored
  · rw [marked]
    exact kept.processed id r (records ▸ found)
  · rw [records]
    exact kept.single run only

theorem history_saved {cm : ConfigMap} (kept : p.Kept w) (saved : FleetSaved p.rules thread w cm f after) :
    after.history = { w.history.add (.saved w.maps after.maps) with stored := book f } := by
  obtain ⟨found, version, newer, rfl⟩ := saved
  have fleet : (putFleet p.rules thread w cm f version).fleet p.name = f := putFleet_fleet
  refine (wrote_fleet found (AList.lookup_insert _) (Nat.lt_of_le_of_lt (kept.wellFormed _ _ found).past newer)).trans ?_
  exact congrArg (fun f => { w.history.add (.saved w.maps _) with stored := book f }) fleet

theorem fleet_saved {cm : ConfigMap} (kept : p.Kept w) (staged : p.At (.running (book f) [] .fresh) w)
    (saved : FleetSaved p.rules thread w cm f after) : p.Kept after := by
  have history := history_saved kept saved
  obtain ⟨found, version, newer, rfl⟩ := saved
  have found : w.maps.lookup (fleetName p.name) = some cm := found
  have genuine := kept.wellFormed _ _ found
  have records := @putFleet_record _ p.rules thread w cm f version kept.wellFormed found newer
  have fleet : (putFleet p.rules thread w cm f version).fleet p.name = f := putFleet_fleet
  have quiet (id : String) : ¬ (Event.saved w.maps (putFleet p.rules thread w cm f version).maps).marks id :=
    not_marks (.inl rfl) (congrFun records id)
  refine ⟨wellFormed_write kept.wellFormed newer (putFleet_genuine genuine newer), ?_, fun id r stands => ?_,
    fun run only => ?_, .idle, ?_⟩
  · rw [fleet, history]
  · rw [history]
    refine (kept.processed id r (records ▸ stands)).trans ?_
    exact (marked_cons.trans (or_iff_right (quiet id))).symm
  · rw [records]
    exact kept.single run only
  · unfold Passes.At
    rw [history]
    exact staged.step (.save kept.stored (congrArg book fleet) quiet)

end Steps

/-! ## One pass -/

section Pass

variable {p : Passes} {thread : Nat} {b : Book} {allocs rest : List Allocation} {todo : List (String × Int)}
  {maps : List ConfigMap}

theorem reconcilePendingRerun_steps {owner repo : String} {run : Int} {pr : PendingRerun}
    (marker : b.marker run = some pr) :
    p.Triple thread
      (fun w => p.At (.running b ((id, run) :: todo) .fresh) w ∧ Passes.Waiting maps allocs w)
      (reconcilePendingRerun owner repo run pr)
      fun result w => p.At (.running b ((id, run) :: todo) (.reading (some result))) w ∧ Passes.Waiting maps allocs w := by
  unfold reconcilePendingRerun
  refine .bind (ask_step (fun _ _ _ executed => executed) fun log reply allowed => .readNext marker allowed) fun reply => ?_
  cases reply with
  | ok jobs =>
    dsimp only [answeredNext]
    split <;> exact .done fun _ holds => holds
  | error e =>
    dsimp only [answeredNext]
    by_cases missing : errorIs (some e) .attemptNotFound = true
    swap
    · simp only [missing]
      exact .done fun _ holds => holds
    simp only [missing, if_true, Bool.not_true, Bool.false_eq_true, if_false]
    refine .bind (ask_step (fun _ _ _ executed => executed) fun log reply allowed => .readOwn marker allowed) fun reply => ?_
    cases reply with
    | error e => exact .done fun _ holds => holds
    | ok jobs =>
      dsimp only [answeredOwn]
      split
      · split <;> exact .done fun _ holds => holds
      · exact .done fun _ holds => holds

/-- The turn of an allocation in a pass. -/
def turn (a : Allocation) : String × Int := (a.id, a.runID)

theorem saveProcessed_steps (same : x = a ∨ x = { a with retryProcessed := true })
    (nodup : ((a :: rest).map Allocation.id).Nodup) (turnBook : Book) :
    p.Triple thread
      (fun w => p.At (.running turnBook (rest.map turn) .fresh) w ∧ Passes.Waiting maps (a :: rest) w)
      ((p.operators thread).saveProcessed x)
      fun _ w => p.At (.running turnBook (rest.map turn) .fresh) w ∧ Passes.Waiting maps rest w := by
  have revision : x.revision = a.revision := by obtain rfl | rfl := same <;> rfl
  have apart (other : Allocation) (member : other ∈ rest) : other.id ≠ a.id := by
    rw [List.map_cons, List.nodup_cons] at nodup
    exact fun equal => nodup.1 (equal ▸ List.mem_map_of_mem member)
  have passed (first : String × Int) (member : first ∈ rest.map turn) : first.1 ≠ a.id := by
    obtain ⟨other, inside, rfl⟩ := List.mem_map.mp member
    exact apart other inside
  have stable := (p.at_stable thread (.running turnBook (rest.map turn) .fresh)).and (p.waiting_stable thread maps (a :: rest))
  unfold Operator.saveProcessed
  rw [revision]
  by_cases present : a.revision = 0
  · exact fun w ⟨_, waiting⟩ => absurd present (waiting.records a List.mem_cons_self).1.1
  have save : p.Triple thread
      (fun w => p.At (.running turnBook (rest.map turn) .fresh) w ∧ Passes.Waiting maps (a :: rest) w)
      ((p.operators thread).store.save x a.revision)
      fun _ w => p.At (.running turnBook (rest.map turn) .fresh) w ∧ Passes.Waiting maps rest w := by
    refine save_triple p.respects (p.named thread) present stable (fun e w _ ⟨staged, waiting⟩ =>
      ⟨staged, waiting.tail⟩) fun w stored after kept ⟨staged, waiting⟩ saved => ?_
    have mine := waiting.records a List.mem_cons_self
    obtain ⟨keeps, holds⟩ := record_saved kept staged waiting.tail mine.1 mine.2 same apart trivial passed saved
    exact ⟨⟨keeps, fun _ overlap => overlap.elim⟩, holds, fun _ => holds⟩
  refine .bind save fun reply => ?_
  cases reply with
  | ok stored => exact .done fun w holds => holds
  | error e =>
    dsimp only
    split <;> exact .done fun w holds => holds

theorem requestRerun_steps {jobs : List RESTJob} :
    p.Triple thread
      (fun w => p.At (.running (book f) (turn a :: todo) .looked) w ∧ Passes.Waiting maps allocs w)
      ((p.operators thread).requestRerun a f jobs)
      fun after w => p.At (.running (book after) todo .fresh) w ∧ Passes.Waiting maps allocs w := by
  unfold Operator.requestRerun
  dsimp only
  split
  · exact .done fun w ⟨staged, waiting⟩ => ⟨staged.step .skip, waiting⟩
  rename_i j admitted
  obtain ⟨nonneg, below, free, _, _⟩ := eligible_spec admitted
  have free : f.pendingReruns.lookup a.runID = none := by simpa [evidence] using free
  let announced (w : Site) : Prop := p.At (.running (book f) (turn a :: todo) .looked) w ∧
    w.history.asking = (a.id, a.runID, (book f).count a.runID + 1)
  have announcedStable : p.rely.Stable thread announced := fun before after _ relied ⟨staged, asking⟩ =>
    ⟨relied.stages _ staged, relied.asking.trans asking⟩
  refine .bind (ask_triple (fun _ => announced) (fun _ _ _ executed => executed) (p.at_stable thread _)
    fun w reply _ staged _ => ?_) fun _ => ?_
  · have reached := staged.step (.announce (a.id, a.runID, f.retriesUsed a.runID + 1))
    exact ⟨⟨_, reached⟩, reached, rfl⟩
  refine .bind (ask_triple (fun reply => p.At (.running ((book f).request a.runID j.id reply) todo .fresh))
    (fun _ _ _ executed => executed) announcedStable fun w reply _ ⟨staged, asking⟩ _ => ?_) fun reply => ?_
  · have reached := staged.step (.post j.id reply asking free ⟨nonneg, below⟩ (p.limits thread))
    exact ⟨⟨_, reached⟩, reached⟩
  cases reply with
  | none => exact .done fun w holds => holds
  | some e =>
    dsimp only [Book.request]
    split <;> exact .done fun w holds => holds

theorem evaluateRetry_steps (nodup : ((a :: rest).map Allocation.id).Nodup) :
    p.Triple thread
      (fun w => p.At (.running (book f) (turn a :: rest.map turn) .looked) w ∧ Passes.Waiting maps (a :: rest) w)
      ((p.operators thread).evaluateRetry a f)
      fun result w => p.At (.running (book result.1) (rest.map turn) .fresh) w ∧ Passes.Waiting maps rest w := by
  unfold Operator.evaluateRetry
  dsimp only
  refine .bind (ask_step (fun _ _ _ executed => executed) fun log reply allowed => .evaluate allowed) fun reply => ?_
  have finish (f' : Fleet) : p.Triple thread
      (fun w => p.At (.running (book f') (rest.map turn) .fresh) w ∧ Passes.Waiting maps (a :: rest) w)
      (do return (f', ← (p.operators thread).saveProcessed
        (if (f'.pendingReruns.lookup a.runID).isSome then a else { a with retryProcessed := true })))
      fun result w => p.At (.running (book result.1) (rest.map turn) .fresh) w ∧ Passes.Waiting maps rest w := by
    refine .bind (saveProcessed_steps ?_ nodup _) fun failures => .done fun w holds => holds
    split
    · exact .inl rfl
    · exact .inr rfl
  cases reply with
  | error e => exact (finish f).pre_mono fun w ⟨staged, waiting⟩ => ⟨staged.step .skip, waiting⟩
  | ok jobs => exact .bind requestRerun_steps fun f' => finish f'

theorem processRetry_steps (nodup : ((a :: rest).map Allocation.id).Nodup) :
    p.Triple thread
      (fun w => p.At (.running (book f) (turn a :: rest.map turn) .fresh) w ∧ Passes.Waiting maps (a :: rest) w)
      ((p.operators thread).processRetry a f)
      fun result w => p.At (.running (book result.1) (rest.map turn) .fresh) w ∧ Passes.Waiting maps rest w := by
  unfold Operator.processRetry
  split
  · rename_i free
    exact (evaluateRetry_steps nodup).pre_mono fun w ⟨staged, waiting⟩ => ⟨staged.step (.unmarked free), waiting⟩
  rename_i pr marker
  have marker : (book f).marker a.runID = some pr := marker
  refine .bind (reconcilePendingRerun_steps marker) fun result => ?_
  obtain ⟨outcome, resolved⟩ := result
  dsimp only
  refine .bind (ask_step (fun _ _ _ executed => executed) fun log reply _ => .classify marker) fun _ => ?_
  cases outcome with
  | confirmedHappened => exact .bind (saveProcessed_steps (.inr rfl) nodup _) fun _ => .done fun w holds => holds
  | confirmedDidNotHappen => exact evaluateRetry_steps (f := f.clearRerun a.runID) nodup
  | stillAmbiguous => exact evaluateRetry_steps (f := f.parkRerun a.runID resolved) nodup

theorem processRetries_steps : ∀ {allocs : List Allocation} {f : Fleet}, (allocs.map Allocation.id).Nodup →
    p.Triple thread
      (fun w => p.At (.running (book f) (allocs.map turn) .fresh) w ∧ Passes.Waiting maps allocs w)
      ((p.operators thread).processRetries allocs f)
      fun result w => p.At (.running (book result.1) [] .fresh) w ∧ Passes.Waiting maps [] w
  | [], f, _ => .done fun w holds => holds
  | a :: rest, f, nodup => by
    unfold Operator.processRetries
    refine .bind (processRetry_steps nodup) fun one => ?_
    obtain ⟨f', failures⟩ := one
    refine .bind (processRetries_steps (List.nodup_cons.mp nodup).2) fun more => ?_
    exact .done fun w holds => holds

/-- Every run of a single allocation is listed once at most. -/
theorem count_listed {w : Site} (lists : Lists w allocs) {run : Int} (unshared : Unshared run w.record) :
    (((allocs.filter interrupted).map turn).map Prod.snd).count run ≤ 1 := by
  rw [List.map_map, List.count, List.countP_map, List.countP_eq_length_filter]
  have nodup : (((allocs.filter interrupted).filter ((· == run) ∘ Prod.snd ∘ turn)).map Allocation.id).Nodup :=
    lists.nodup.sublist ((List.filter_sublist.trans List.filter_sublist).map _)
  have ofRun (a : Allocation) (member : a ∈ (allocs.filter interrupted).filter ((· == run) ∘ Prod.snd ∘ turn)) :
      w.record a.id = some a ∧ interrupted a = true ∧ a.runID = run := by
    simp only [List.mem_filter, Function.comp_apply, beq_iff_eq] at member
    exact ⟨lists.sound a member.1.1, member.1.2, member.2⟩
  generalize (allocs.filter interrupted).filter ((· == run) ∘ Prod.snd ∘ turn) = chosen at nodup ofRun
  match chosen, nodup, ofRun with
  | [], _, _ => exact Nat.zero_le _
  | [_], _, _ => exact Nat.le_refl _
  | a :: b :: _, nodup, ofRun =>
    obtain ⟨found, stands, own⟩ := ofRun a List.mem_cons_self
    obtain ⟨found', stands', own'⟩ := ofRun b (List.mem_cons_of_mem _ List.mem_cons_self)
    have same := unshared a.id b.id a b found found' stands stands' own own'
    simp [same] at nodup

/-- A pass takes steps of the machine. -/
theorem pass_steps : p.Triple thread (fun _ => True)
    (p.operators thread).processInterruptionRetries (p.Ended thread) := by
  have own := p.named thread
  unfold Operator.processInterruptionRetries
  split
  · rename_i disabled
    exact .done fun _ _ _ enabled => by simp [enabled] at disabled
  have begin : p.Triple thread (fun _ => True)
      (ask (S := Api) (.note .started)) fun _ => p.At .listing := by
    have noted : p.Triple thread (fun w => True ∧ Passes.Waiting [] [] w)
        (ask (S := Api) (.note .started)) fun _ w => p.At .listing w ∧ Passes.Waiting [] [] w := by
      refine ask_triple _ (fun _ _ _ executed => executed) (Rely.stable_pure True) fun w reply kept _ _ => ?_
      obtain ⟨stage, staged⟩ := kept.staged
      have reached := staged.step .start
      exact ⟨⟨_, reached⟩, reached⟩
    refine Rely.Triple.mono (noted.pre_mono fun w _ => ⟨trivial, by simp, by simp⟩) fun _ _ holds => holds.1
  refine .bind begin fun _ => ?_
  let listed (allocs : List Allocation) : Prop := ((allocs.filter interrupted).map Allocation.id).Nodup ∧
    ∀ run, p.conditions.single run → (((allocs.filter interrupted).map turn).map Prod.snd).count run ≤ 1
  have list : p.Triple thread (p.At .listing) (p.operators thread).store.list fun reply w =>
      ∀ allocs, reply = .ok allocs → p.At .listing w ∧ Passes.Waiting [] (allocs.filter interrupted) w ∧ listed allocs := by
    refine list_triple p.respects own (p.at_stable thread _) (fun e w _ _ allocs same => by cases same) ?_
    intro allocs w kept staged lists other same
    cases same
    refine ⟨staged, ⟨fun a member => ?_, by simp⟩, lists.nodup.sublist (List.filter_sublist.map _), fun run only => ?_⟩
    · obtain ⟨inside, stands⟩ := List.mem_filter.mp member
      have found := lists.sound a inside
      refine ⟨.of_record kept.wellFormed found, fun marked => ?_⟩
      simp [interrupted, (kept.processed _ a found).mpr marked] at stands
    · exact count_listed lists (kept.single run only)
  refine .bind list fun reply => ?_
  cases reply with
  | error e => exact .done fun _ _ => nofun
  | ok allocs =>
    dsimp only
    split
    · exact .done fun w holds _ _ => finished_listing (holds allocs rfl).1 rfl
    refine .given (fun w holds => (holds allocs rfl).2.2) fun once => ?_
    let known (w : Site) : Prop := p.At .listing w ∧ Passes.Waiting [] (allocs.filter interrupted) w
    have knownStable : p.rely.Stable thread known := (p.at_stable thread _).and (p.waiting_stable thread [] _)
    let loaded (reply : Except GoError (ConfigMap × Fleet)) (w : Site) : Prop := ∀ cm f, reply = .ok (cm, f) →
      (p.At (.running (book f) ((allocs.filter interrupted).map turn) .fresh) w ∧
        Passes.Waiting [cm] (allocs.filter interrupted) w) ∧ cm.name = fleetName p.name ∧ cm.resourceVersion ≠ 0
    have load : p.Triple thread known (p.operators thread).loadFleet loaded := by
      refine loadFleet_triple own knownStable (fun e w _ _ cm f same => by cases same) ?_ ?_
      · intro w after kept ⟨staged, waiting⟩ opened
        obtain ⟨keeps, holds⟩ := fleet_opened kept staged waiting opened
        exact ⟨⟨keeps, fun _ overlap => overlap.elim⟩, holds⟩
      · intro cm f w kept ⟨staged, waiting⟩ found bound cm' f' same
        cases same
        have genuine := kept.wellFormed _ _ found
        have fleet : w.fleet p.name = fleetOf cm := fleet_of_lookup found
        have stored : book f = w.history.stored := by
          rw [← kept.stored, bind_frame bound, fleet]
          rfl
        have seen : Seen cm w := .of_lookup kept.wellFormed found
        refine ⟨⟨?_, waiting.records, by simpa using seen⟩, genuine.named, genuine.assigned⟩
        rw [stored]
        refine staged.step (.load ?_ (fun turn member => ?_) once.2)
        · rw [List.map_map]
          exact once.1
        · obtain ⟨a, inside, rfl⟩ := List.mem_map.mp member
          exact (waiting.records a inside).2
    refine .bind (load.pre_mono fun w holds => ⟨(holds allocs rfl).1, (holds allocs rfl).2.1⟩) fun reply => ?_
    cases reply with
    | error e => exact .done fun _ _ => nofun
    | ok pair =>
      obtain ⟨cm, f⟩ := pair
      dsimp only
      refine .given (fun w holds => (holds cm f rfl).2) fun own => ?_
      refine .bind ((processRetries_steps once.1).pre_mono fun w holds => (holds cm f rfl).1) fun result => ?_
      obtain ⟨f', failures⟩ := result
      dsimp only
      have save : p.Triple thread
          (fun w => p.At (.running (book f') [] .fresh) w ∧ Passes.Waiting [cm] [] w) (saveFleet cm f')
          fun failed w => failed = none → finished w.history.events = true := by
        refine saveFleet_triple ((p.at_stable thread _).and (p.waiting_stable thread _ _))
          (fun w _ holds => ⟨own.1, own.2, holds.2.maps cm (List.mem_singleton_self cm)⟩) (fun _ _ _ _ => nofun) ?_
        intro w after kept ⟨staged, _⟩ saved
        refine ⟨⟨fleet_saved kept staged saved, fun _ overlap => overlap.elim⟩, fun _ _ => ?_⟩
        rw [history_saved kept saved]
        rfl
      refine .bind save fun failed => ?_
      cases failed with
      | some e => exact .done fun _ _ none => by cases failures <;> cases none
      | none => exact .done fun _ holds _ _ => holds rfl

end Pass

section Runs

variable {p : Passes} {system : System Api Site (Option GoError)}

/-- Whatever the passes do is a run of the machine. -/
theorem run_safe (run : p.Run system) : Rely.SystemSafe p.rely p.rules.semantics p.Ended system := by
  refine Rely.reachable_safe (fun w initial => ?_) (fun w after kept moved => ?_) ?_ run
  · have fresh : w.history.events = [] := by rw [initial.history]
    refine ⟨initial.wellFormed, by rw [initial.unused, initial.history], fun id r found => ?_, initial.single, .idle, ?_⟩
    · simp [initial.unprocessed id r found, fresh, Marked]
    · unfold Passes.At
      rw [initial.history]
  · have unchanged : after.history.events = w.history.events ∧ after.history.asking = w.history.asking ∧
        after.history.stored = w.history.stored := by
      obtain same | ⟨run, attempt, _, same⟩ := moved.history
      · simp [same]
      · simp [same, Log.land]
    obtain ⟨events, asking, stored⟩ := unchanged
    have stages (stage : Stage) (staged : p.At stage w) : p.At stage after := by
      unfold Passes.At
      obtain same | ⟨run, attempt, outstanding, same⟩ := moved.history <;> rw [same]
      · exact staged
      · exact staged.step (.land outstanding)
    obtain ⟨stage, staged⟩ := kept.staged
    refine ⟨⟨moved.wellFormed, ?_, ?_, moved.single, stage, stages stage staged⟩, fun _ =>
      ⟨moved.evolves, events, asking, stages⟩⟩
    · rw [moved.maps, kept.stored, stored]
    · rw [events]
      exact moved.processed
  · rintro thread w program kept rfl
    exact pass_steps.safe (fun result before after _ relied ended none enabled => relied.events ▸ ended none enabled) trivial

theorem run_reachable (run : p.Run system) : p.Kept system.world := (run_safe run).invariant

/-- A pass that returns no error has saved its fleet after its last request. -/
theorem pass_finished (run : p.Run system) {thread : Nat} (ended : system.threads thread = some (.done none))
    (enabled : (p.operators thread).gitHubJobs = true ∧ (p.operators thread).config.retry.enabled = true) :
    finished system.world.history.events = true := (run_safe run).result ended rfl enabled

end Runs

/-! ## Replaying passes -/

/-- The record of an interruption that no pass has looked at. -/
def lost (id : String) (run : Int) : Allocation where
  id := id
  phase := .deleted
  condition := "ResourceAbsentConfirmedInterruption"
  runID := run

/-- A cluster with the records of some interruptions, by allocation and run. -/
def stocked (name : String) : List (String × Int) → Maps
  | [] => ∅
  | (id, run) :: rest => (stocked name rest).insert id ((⟨name⟩ : Kubernetes).encode (lost id run) 1)

theorem lost_stored (id : String) (run : Int) : StoredRecord (lost id run) := ⟨rfl, [], false, rfl⟩

theorem lookup_stocked {key : String} {cm : ConfigMap} : ∀ {losses : List (String × Int)},
    (stocked name losses).lookup key = some cm →
    ∃ run, (key, run) ∈ losses ∧ cm = (⟨name⟩ : Kubernetes).encode (lost key run) 1
  | [], found => by cases found
  | (id, run) :: rest, found => by
    by_cases same : key = id
    · subst same
      rw [stocked, AList.lookup_insert] at found
      cases found
      exact ⟨run, List.mem_cons_self, rfl⟩
    · rw [stocked, AList.lookup_insert_ne same] at found
      obtain ⟨run, member, rfl⟩ := lookup_stocked found
      exact ⟨run, List.mem_cons_of_mem _ member, rfl⟩

section Replay

variable (p : Passes) {losses : List (String × Int)}

theorem stocked_initial (apart : ∀ loss ∈ losses, loss.1 ≠ fleetName p.name)
    (single : ∀ run, p.conditions.single run → ∀ first ∈ losses, ∀ second ∈ losses, first.2 = run → second.2 = run →
      first.1 = second.1) :
    p.Initial { maps := stocked p.name losses, version := 1, history := {} } := by
  have absent : (stocked p.name losses).lookup (fleetName p.name) = none := by
    refine Option.eq_none_iff_forall_ne_some.mpr fun cm found => ?_
    obtain ⟨run, member, _⟩ := lookup_stocked found
    exact apart _ member rfl
  have record (id : String) (r : Allocation) (found : (stocked p.name losses).record id = some r) :
      ∃ run, (id, run) ∈ losses ∧ r = { lost id run with revision := 1 } := by
    obtain ⟨cm, known, decoded⟩ := Option.bind_eq_some_iff.mp found
    obtain ⟨run, member, rfl⟩ := lookup_stocked known
    rw [decodeAllocation_encode (lost_stored id run)] at decoded
    cases decoded
    exact ⟨run, member, rfl⟩
  refine ⟨fun key cm found => ?_, rfl, ?_, fun id r found => ?_, fun run only => ?_⟩
  · obtain ⟨run, member, rfl⟩ := lookup_stocked found
    exact ⟨rfl, Nat.one_ne_zero, Nat.le_refl _, .inr ⟨apart _ member, lost key run, lost_stored key run, rfl, rfl⟩⟩
  · simp [World.fleet, Maps.fleet, absent, book]
  · obtain ⟨run, _, rfl⟩ := record id r found
    rfl
  · intro id other a b found found' _ _ ofRun ofRun'
    obtain ⟨_, member, rfl⟩ := record id a found
    obtain ⟨_, member', rfl⟩ := record other b found'
    exact single run only _ member _ member' ofRun ofRun'

/-- All passes are made by the same operator. -/
def Passes.madeBy (o : Operator) (conditions : Conditions) (limit : conditions.limits o.config.retry.maxRetries) : Passes where
  name := o.config.name
  operators := fun _ => o
  named := fun _ => rfl
  conditions := conditions
  limits := fun _ => limit

/-- GitHub answers as told, and some requests to the cluster fail. -/
def Passes.script (fails : ApiRequest → Site → Bool) (reply : (request : ApiRequest) → Site → ApiReply request)
    (allowed : ∀ w request, p.conditions.allow w.history request (reply request w)) (thread : Nat) :
    Script p.rules thread where
  now := fun _ => 0
  shown := fun _ => trivial
  fails := fails
  removes := fun _ _ => false
  removable := fun _ _ _ => trivial
  reply := reply
  next := fun request w => w.history.answer request (reply request w)
  outside := fun w request => ⟨allowed w request, rfl⟩

/-- Some passes made in turn, each up to a number of requests. -/
def Passes.played (scripts : (thread : Nat) → Script p.rules thread) (losses : List (String × Int))
    (turns : List (Nat × Nat)) : System Api Site (Option GoError) where
  world := System.playAll (fun thread => (scripts thread).answer)
    (turns.map fun turn => (turn.1, turn.2, (p.operators turn.1).processInterruptionRetries))
    { maps := stocked p.name losses, version := 1, history := {} }
  threads := fun _ => none

theorem Passes.played_run (scripts : (thread : Nat) → Script p.rules thread) (turns : List (Nat × Nat))
    (initial : p.Initial { maps := stocked p.name losses, version := 1, history := {} }) :
    p.Run (p.played scripts losses turns) := by
  refine System.Reachable.playAll (fun thread => (scripts thread).honest) _ (fun turn member => ?_) (.initial _ initial)
  obtain ⟨_, _, rfl⟩ := List.mem_map.mp member
  rfl

end Replay

end RunnerScout.Reruns
