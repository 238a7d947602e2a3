import RunnerScout.Capacity.Cycle
import RunnerScout.State.Replay

/-! # Whole runs

Every call keeps every invariant that the moves of the books keep, so each result
about a run is left with one question: which moves keep it.  `Drained` is read-only;
where calls do not overlap, what it returns is exact.
-/

namespace RunnerScout.Capacity

open Interaction Program Lifecycle Operator State

/-! ## `Drained` -/

/-- Nothing is pending and every record is terminal. -/
def Finished (b : Books) : Prop :=
  (∀ id, id ∉ b.fleet.pending) ∧ ∀ id r, b.record id = some r → r.phase.terminal = true

theorem drainedRecords_eq {f : Fleet} : ∀ {allocs : List Allocation}, (∀ a ∈ allocs, a.id ∈ f.created) →
    drainedRecords f allocs = .ok (allocs.all fun a => a.phase.terminal)
  | [], _ => rfl
  | a :: rest, created => by
    have first : (f.created.lookup a.id).isNone = false := by
      rw [Option.isNone_eq_false_iff, AList.lookup_isSome]
      exact created a List.mem_cons_self
    have more := drainedRecords_eq fun b member => created b (List.mem_cons_of_mem _ member)
    cases terminal : a.phase.terminal <;> simp [drainedRecords, first, terminal, more]

section Drained

variable {s : Setting} {J : Cluster → Prop} {thread : Nat} {o : Operator} {w : Cluster} {f : Fleet}
  {allocs : List Allocation}

/-- Every allocation admitted is listed or pruned, so the records alone decide. -/
theorem drainedResult_exact (kept : s.Invariant J w) (bound : (s.books w).fleet.bind o.config = .ok f)
    (lists : Lists w allocs) (empty : ∀ id, id ∉ f.pending) :
    (drainedResult f allocs).2 = none ∧ ((drainedResult f allocs).1 = true ↔ Finished (s.books w)) := by
  have frame := bind_frame bound
  have pending : f.pending = (s.books w).fleet.pending := by rw [frame]
  have created : f.created = (s.books w).fleet.created := by rw [frame]
  have records : drainedRecords f allocs = .ok (allocs.all fun a => a.phase.terminal) :=
    drainedRecords_eq fun a member => created ▸ (Holding.of_record kept (lists.sound a member)).created
  have finished : Finished (s.books w) ↔ allocs.all (fun a => a.phase.terminal) = true := by
    rw [List.all_eq_true]
    constructor
    · rintro ⟨_, terminal⟩ a member
      exact terminal a.id a (lists.sound a member)
    · intro terminal
      exact ⟨fun id => pending ▸ empty id, fun id r found => terminal r (lists.complete id r found)⟩
  rw [finished, drainedResult, records]
  cases all : allocs.all fun a => a.phase.terminal
  · simp
  · refine ⟨rfl, iff_of_true ?_ rfl⟩
    rw [List.all_eq_true]
    intro id member
    obtain waiting | present | marked := kept.sound.accounted id (created ▸ AList.mem_keys.mpr member)
    · exact absurd (pending ▸ waiting) (empty id)
    · obtain ⟨r, found⟩ := Option.ne_none_iff_exists'.mp present
      have named := kept.wellFormed.record_id found
      have listed : id ∈ allocs.map Allocation.id := List.mem_map.mpr ⟨r, lists.complete id r found, named⟩
      simpa using .inl (List.mem_map.mp listed)
    · have marked : f.isPruned id = true := by rw [frame]; exact marked
      simp [marked]

theorem drained_triple (own : o.config.name = s.name) :
    s.Triple J thread (fun _ => True) o.drained fun result w =>
      s.Serial → result.2 = none → (result.1 = true ↔ Finished (s.books w)) := by
  unfold Operator.drained
  let read (f : Fleet) (w : Cluster) : Prop := s.Serial → (s.books w).fleet.bind o.config = .ok f
  have readStable (f : Fleet) : (s.rely J).Stable thread (read f) := by
    rintro w after _ ⟨_, _, quiet⟩ bound serial
    rw [quiet serial]
    exact bound serial
  have load : s.Triple J thread (fun _ => True) (o.readFleet false) fun reply w =>
      ∀ cm f, reply = .ok (cm, f) → read f w := by
    refine readFleet_triple own (Rely.stable_pure True) (fun e w _ _ cm f same => by cases same) ?_
    intro cm f w _ _ bound cm' f' same
    cases same
    exact fun _ => bound
  refine .bind load fun reply => ?_
  cases reply with
  | error e => exact .done fun w _ _ failed => by cases failed
  | ok pair =>
    obtain ⟨cm, f⟩ := pair
    dsimp only
    split
    · rename_i waits
      refine .done fun w loaded serial _ => ⟨Bool.noConfusion, fun finished => absurd ?_ waits⟩
      have pending : f.pending = (s.books w).fleet.pending := by rw [bind_frame (loaded cm f rfl serial)]
      rw [List.length_eq_zero_iff, List.eq_nil_iff_forall_not_mem]
      exact fun id member => finished.1 id (pending ▸ AList.mem_keys.mpr member)
    rename_i settled
    have empty (id : String) : id ∉ f.pending := fun member => by
      have none : f.pending.keys = [] := List.eq_nil_of_length_eq_zero (by simpa using settled)
      have := AList.mem_keys.mp member
      rw [none] at this
      cases this
    have list : s.Triple J thread (read f) o.store.list fun reply w =>
        ∀ allocs, reply = .ok allocs → s.Serial →
          (drainedResult f allocs).2 = none ∧ ((drainedResult f allocs).1 = true ↔ Finished (s.books w)) := by
      refine list_triple rely_respects own (readStable f) (fun e w _ _ allocs same => by cases same) ?_
      intro allocs w kept bound lists other same serial
      cases same
      exact drainedResult_exact kept (bound serial) lists empty
    refine .bind (list.pre_mono fun w loaded => loaded cm f rfl) fun reply => ?_
    cases reply with
    | error e => exact .done fun w _ _ failed => by cases failed
    | ok allocs => exact .done fun w exact serial _ => (exact allocs rfl serial).2

/-- The handler of a cluster whose reads do not fail; any other request is out of the question. -/
def reading : Handler Api Cluster := fun request post w =>
  match request with
  | .getMap name =>
    (∀ cm, w.maps.lookup name = some cm → post (.ok cm) w) ∧
      (w.maps.lookup name = none → ∀ e, errorIs (some e) .notFound = true → post (.error e) w)
  | .listMaps owner kind => ∀ items, items.Perm (selected w.maps owner kind) → post (.ok items) w
  | _ => False

theorem reading_monotone : reading.Monotone := by
  intro request first second w implies holds
  cases request with
  | getMap name =>
    exact ⟨fun cm found => implies _ _ (holds.1 cm found),
      fun absent e missing => implies _ _ (holds.2 absent e missing)⟩
  | listMaps owner kind => exact fun items selects => implies _ _ (holds items selects)
  | createMap | updateMap | deleteMap | now | newUUID | readCatalog | observePrice | pollInterruptions | provider
  | deregisterRunner | attemptJobs | rerunFailedJobs | note | rangeOrder | schedule => exact holds.elim

theorem decodeFleet_succeeds {cm : ConfigMap} (own : o.config.name = s.name)
    (owner : cm.labels.lookup ownerLabel = some s.name) (stored : ∃ f, cm.data.lookup "fleet" = some (.fleet f))
    (bound : (fleetOf cm).bind o.config = .ok f) : o.decodeFleet cm = .ok f := by
  obtain ⟨g, found⟩ := stored
  have content : fleetOf cm = g := by simp only [fleetOf, found]
  rw [content] at bound
  simp [Operator.decodeFleet, owner, own, found, bound]

theorem readFleet_reads (kept : s.Invariant J w) (own : o.config.name = s.name)
    (bound : (s.books w).fleet.bind o.config = .ok f) :
    (o.readFleet false).wp reading (fun reply after => after = w ∧ ∃ cm, reply = .ok (cm, f)) w := by
  have decode (cm : ConfigMap) (owner : cm.labels.lookup ownerLabel = some s.name)
      (stored : ∃ f, cm.data.lookup "fleet" = some (.fleet f)) (same : (s.books w).fleet = fleetOf cm) :
      o.decodeFleet cm = .ok f := decodeFleet_succeeds own owner stored (same ▸ bound)
  unfold Operator.readFleet Operator.fleetMap
  rw [own]
  refine ⟨fun cm found => ?_, fun absent e missing => ?_⟩
  · obtain ⟨_, owner, _, _, _, stored⟩ | ⟨notFleet, _⟩ := (kept.wellFormed _ _ found).content
    · have decoded := decode cm owner stored (books_fleet found)
      simp only [Program.pure_eq_done, Program.bind, decoded]
      exact ⟨rfl, cm, rfl⟩
    · exact absurd rfl notFleet
  · have same : (s.books w).fleet = fleetOf (emptyFleetMap s.name) := by
      have none : (s.books w).fleet = {} := by simp only [Setting.books, World.fleet, Maps.fleet, absent]
      exact none.trans (@fleetOf_emptyFleetMap s.name 0).symm
    have decoded := decode (emptyFleetMap s.name) (AList.lookup_insert _) ⟨{}, AList.lookup_insert _⟩ same
    simp only [Program.pure_eq_done, Program.bind, missing, if_true, Bool.false_eq_true, if_false, decoded]
    exact ⟨rfl, _, rfl⟩

theorem list_reads (kept : s.Invariant J w) (own : o.config.name = s.name) :
    o.store.list.wp reading (fun reply after => after = w ∧ ∃ allocs, reply = .ok allocs ∧ Lists w allocs) w := by
  unfold Kubernetes.list
  intro items selects
  rw [show o.store.owner = s.name from own] at selects
  have genuine (cm : ConfigMap) (member : cm ∈ items) :
      ∃ a, StoredRecord a ∧ cm = (⟨s.name⟩ : Kubernetes).encode a cm.resourceVersion := by
    obtain ⟨key, found, notFleet⟩ := kept.wellFormed.mem_selected.mp (selects.mem_iff.mp member)
    obtain ⟨a, stored, _, encoded, _⟩ := record_of_lookup found (kept.wellFormed key cm found) notFleet
    exact ⟨a, stored, encoded⟩
  obtain ⟨allocs, decoded⟩ := decodeAll_succeeds genuine
  exact ⟨rfl, allocs, decoded, @lists_of_decodeAll _ s.rules w kept.wellFormed items allocs selects decoded⟩

/-- Without failing reads `Drained` returns, and its answer is exact. -/
theorem drained_reads (kept : s.Invariant J w) (own : o.config.name = s.name)
    (bound : (s.books w).fleet.bind o.config = .ok f) :
    o.drained.wp reading (fun result after => after = w ∧ result.2 = none ∧
      (result.1 = true ↔ Finished (s.books w))) w := by
  have pending : f.pending = (s.books w).fleet.pending := by rw [bind_frame bound]
  unfold Operator.drained
  rw [wp_bind]
  refine wp_mono reading_monotone _ ?_ w (readFleet_reads kept own bound)
  rintro _ _ ⟨rfl, cm, rfl⟩
  dsimp only
  split
  · rename_i waits
    refine ⟨rfl, rfl, Bool.noConfusion, fun finished => absurd ?_ waits⟩
    rw [List.length_eq_zero_iff, List.eq_nil_iff_forall_not_mem]
    exact fun id member => finished.1 id (pending ▸ AList.mem_keys.mpr member)
  rename_i settled
  have none : f.pending.keys = [] := List.eq_nil_of_length_eq_zero (by simpa using settled)
  rw [wp_bind]
  refine wp_mono reading_monotone _ ?_ _ (list_reads kept own)
  rintro _ _ ⟨rfl, allocs, rfl, lists⟩
  exact ⟨rfl, drainedResult_exact kept bound lists fun id member => by
    have := AList.mem_keys.mp member
    rw [none] at this
    cases this⟩

end Drained

/-! ## Every call -/

/-- What a call that has returned is known to have told the truth about. -/
def Setting.returned (s : Setting) (_ : Nat) (outcome : Outcome) (w : Cluster) : Prop :=
  match outcome with
  | .drained empty err => s.Serial → err = none → (empty = true ↔ Finished (s.books w))
  | _ => True

/-- A cluster in which the scale set has not been started. -/
structure Setting.Initial (s : Setting) (w : Cluster) : Prop where
  maps : w.maps = ∅
  drawn : w.drawn = []
  history : w.history = []

section Runs

variable {s : Setting} {J : Cluster → Prop}

theorem returned_stable (thread : Nat) (outcome : Outcome) :
    (s.rely J).Stable thread (s.returned thread outcome) := by
  rintro w after _ ⟨_, _, quiet⟩ held
  cases outcome with
  | drained empty err =>
    intro serial succeeded
    rw [quiet serial]
    exact held serial succeeded
  | counted | ticked | handled => trivial

theorem call_triple (preserved : Preserved s J) (thread : Nat) :
    s.Triple J thread (fun _ => True) (s.calls thread).program (s.returned thread) := by
  have named := s.named thread
  have config : (s.calls thread).operator.config = s.config thread := rfl
  have event (o : Operator) (own : o.config.name = s.name) {program : Program Calls (Option GoError)}
      (follows : program.Follows writerProtocol .start fun _ _ => True) :
      s.Triple J thread (fun _ => True) (program.interpret (o.stepCall ∅)) fun _ _ => True :=
    of_workers ((writer_triple preserved own follows).pre_mono fun _ _ a same => by cases same)
  cases call : s.calls thread with
  | desiredRunnerCount o count =>
    exact .bind (handleDesiredRunnerCount_triple preserved call) fun _ => .done fun _ _ => trivial
  | tick o =>
    rw [call] at config
    exact .bind (tick_triple preserved config) fun _ => .done fun _ _ => trivial
  | drained o =>
    rw [call] at named
    exact .bind (drained_triple named) fun result => .done fun _ exact => exact
  | jobStarted o j =>
    rw [call] at named
    exact .bind (event o named (writer_follows (.jobStarted j rfl))) fun _ => .done fun _ _ => trivial
  | jobCompleted o j =>
    rw [call] at named
    exact .bind (event o named (writer_follows (.jobCompleted j rfl))) fun _ => .done fun _ _ => trivial

theorem initial_invariant {w : Cluster} (initial : s.Initial w) (extra : J w) : s.Invariant J w := by
  have missing (key : String) : w.maps.lookup key = none := by rw [initial.maps]; rfl
  have fleet : (s.books w).fleet = {} := by simp only [Setting.books, World.fleet, Maps.fleet, missing]
  have record (id : String) : (s.books w).record id = none := by
    simp only [Setting.books, World.record, Maps.record, missing, Option.bind_none]
  have drawn : (s.books w).drawn = [] := initial.drawn
  refine ⟨fun key cm found => ?_, ⟨?_, ?_, ?_, ?_, ?_, ?_, ?_, ?_, ?_, ?_, ?_⟩, extra⟩
  · rw [missing] at found
    cases found
  all_goals simp only [fleet, record, drawn]
  · exact fun id member => absurd member (AList.notMem_empty id)
  · exact fun id present => absurd rfl present
  · exact fun id member => absurd member (AList.notMem_empty id)
  · exact fun id marked => Bool.noConfusion marked
  · exact fun id r marked => Bool.noConfusion marked
  · exact fun id member => absurd member (AList.notMem_empty id)
  · exact fun id member => (List.not_mem_nil member).elim
  · exact fun id a found => by cases found
  · exact fun id stamp found => by cases found
  · exact fun id r found => by cases found
  · exact fun id r pool t found => by cases found

/-- The runs of a setting, from the start of its scale set. -/
abbrev Setting.Run (s : Setting) (system : System Api Cluster Outcome) : Prop :=
  System.Reachable s.rules.semantics (fun _ _ => False) s.starts s.together s.Initial system

/-- A whole run keeps whatever its moves keep, and what `Drained` returns is true. -/
theorem run_safe (preserved : Preserved s J) (base : ∀ w, s.Initial w → J w) {system : System Api Cluster Outcome}
    (run : s.Run system) : Rely.SystemSafe (s.rely J) s.rules.semantics s.returned system := by
  refine Rely.reachable_safe (fun w initial => initial_invariant initial (base w initial))
    (fun _ _ _ moved => moved.elim) ?_ run
  rintro thread w program kept rfl
  exact (call_triple preserved thread).safe (returned_stable thread) trivial

/-- An invariant of the books alone. -/
theorem preserved_of_moves {P : Books → Prop}
    (kept : ∀ thread b after, Sound s b → P b → Move s thread b after → P after) :
    Preserved s fun w => P (s.books w) :=
  fun thread _ _ _ sound holds act => kept thread _ _ sound holds act.move

theorem Setting.Initial.books {w : Cluster} (initial : s.Initial w) :
    (s.books w).fleet = {} ∧ ∀ id, (s.books w).record id = none := by
  have missing (key : String) : w.maps.lookup key = none := by rw [initial.maps]; rfl
  exact ⟨by simp only [Setting.books, World.fleet, Maps.fleet, missing],
    fun id => by simp only [Setting.books, World.record, Maps.record, missing, Option.bind_none]⟩

end Runs

/-! ## Settings -/

/-- One call at a time, under a clock that does not go back. -/
def Setting.alone (name : String) (calls : Nat → Call) (named : ∀ thread, (calls thread).operator.config.name = name)
    (removable : Books → String → Prop := fun _ _ => True) : Setting where
  name := name
  calls := calls
  named := named
  together := System.serial
  clock := fun t shown => t ≤ shown
  removable := removable
  apart := .inl fun _ _ overlap => overlap

/-- Any number of processes at once, for less than the retention of terminal records. -/
def Setting.shared (name : String) (calls : Nat → Call) (named : ∀ thread, (calls thread).operator.config.name = name)
    (opening : Time) : Setting where
  name := name
  calls := calls
  named := named
  together := System.concurrent
  clock := fun _ shown => opening ≤ shown ∧ shown < opening + terminalRetention
  apart := .inr ⟨opening, fun _ _ within => within⟩

section Replay

variable (s : Setting)

/-- Requests to the cluster succeed, other services know nothing, and every create is refused. -/
def Setting.plain (now : Nat → Time → Time) (shown : ∀ thread t, s.clock t (now thread t)) (removes : Bool)
    (removable : removes = true → ∀ b id, s.removable b id) (thread : Nat) : Script s.rules thread where
  now := fun w => now thread w.clock
  shown := fun w => shown thread w.clock
  removes := fun _ _ => removes
  removable := fun w id allowed => removable allowed (s.books w) id
  reply := fun request _ => silence request
  next := fun _ w => w.history
  outside := fun _ _ => rfl

/-- Some calls made in turn, each up to a number of requests. -/
def Setting.played (scripts : (thread : Nat) → Script s.rules thread) (turns : List (Nat × Nat)) :
    System Api Cluster Outcome where
  world := System.playAll (fun thread => (scripts thread).answer)
    (turns.map fun turn => (turn.1, turn.2, (s.calls turn.1).program)) { history := [] }
  threads := fun _ => none

theorem Setting.played_run (scripts : (thread : Nat) → Script s.rules thread) (turns : List (Nat × Nat)) :
    s.Run (s.played scripts turns) := by
  refine System.Reachable.playAll (fun thread => (scripts thread).honest) _ (fun turn member => ?_)
    (.initial _ ⟨rfl, rfl, rfl⟩)
  obtain ⟨_, _, rfl⟩ := List.mem_map.mp member
  rfl

end Replay

end RunnerScout.Capacity
