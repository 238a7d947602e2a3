import RunnerScout.Operator.Tick
import RunnerScout.State.Operations

/-! # Rules for the loops of a cycle

`Tick` runs over the pending admissions, over the records it lists and over the
interrupted ones among them, and a demand is turned into one admission after another.
Each of these loops has one rule here, for any notion of interference the store
operations can live with; what one turn must do is left to whoever uses the rule.
-/

namespace RunnerScout.State

open Interaction Lifecycle Operator

section Rules

variable {γ : Type} {rules : Rules γ} {rely : Rely (World γ)} {thread : Nat} {pre : World γ → Prop} {o : Operator}

/-! ## Pending admissions -/

/-- The name of a pending admission was taken by a record, this one or another. -/
def Taken (reply : Except GoError Allocation) : Prop :=
  (∃ stored, reply = .ok stored) ∨ ∃ e, reply = .error e ∧ errorIs (some e) .conflict = true

/-- The loop leaves behind the entries it has not come to. -/
theorem migrate_rule {entries : GoMap String Allocation → World γ → Prop}
    (creates : ∀ pending id a, pending.lookup id = some a →
      rely.Triple rules.semantics thread (entries pending)
        (o.store.save (if o.draining then { a with retire := true } else a) 0)
        fun reply w => Taken reply → entries (pending.erase id) w)
    (order : List String) (f : Fleet) :
    rely.Triple rules.semantics thread (entries f.pending) (o.migrate order f) fun reply w =>
      ∀ f', reply = .ok f' → ∃ left, f' = { f with pending := left } ∧
        (∀ id a, left.lookup id = some a → f.pending.lookup id = some a) ∧ (∀ id ∈ order, id ∉ left) ∧
        entries left w := by
  induction order generalizing f with
  | nil =>
    refine .done fun w holds f' same => ?_
    cases same
    exact ⟨f.pending, rfl, fun _ _ found => found, fun _ member => (List.not_mem_nil member).elim, holds⟩
  | cons id rest ih =>
    unfold Operator.migrate
    dsimp only
    split
    · -- no longer in the map
      rename_i gone
      refine (ih f).mono fun reply w all f' same => ?_
      obtain ⟨left, content, inside, passed, holds⟩ := all f' same
      refine ⟨left, content, inside, fun other member still => ?_, holds⟩
      obtain rfl | later := List.mem_cons.mp member
      · obtain ⟨a, found⟩ := GoMap.mem_iff.mp still
        rw [inside _ a found] at gone
        cases gone
      · exact passed other later still
    rename_i a entry
    have next : rely.Triple rules.semantics thread (entries (f.pending.erase id))
        (o.migrate rest { f with pending := f.pending.erase id }) fun reply w =>
        ∀ f', reply = .ok f' → ∃ left, f' = { f with pending := left } ∧
          (∀ id a, left.lookup id = some a → f.pending.lookup id = some a) ∧ (∀ other ∈ id :: rest, other ∉ left) ∧
          entries left w := by
      refine (ih { f with pending := f.pending.erase id }).mono fun reply w all f' same => ?_
      obtain ⟨left, content, inside, passed, holds⟩ := all f' same
      have erased (other : String) (b : Allocation) (found : left.lookup other = some b) :
          other ≠ id ∧ f.pending.lookup other = some b := GoMap.lookup_erase_eq_some.mp (inside other b found)
      refine ⟨left, content, fun other b found => (erased other b found).2, fun other member still => ?_, holds⟩
      obtain rfl | later := List.mem_cons.mp member
      · obtain ⟨b, found⟩ := GoMap.mem_iff.mp still
        exact (erased _ b found).1 rfl
      · exact passed other later still
    refine .bind (creates f.pending id a entry) fun reply => ?_
    cases reply with
    | ok stored => exact next.pre_mono fun w taken => taken (.inl ⟨stored, rfl⟩)
    | error e =>
      dsimp only
      split
      · rename_i conflict
        exact next.pre_mono fun w taken => taken (.inr ⟨e, rfl, conflict⟩)
      · exact .done fun w _ f' same => by cases same

/-! ## The fan-out -/

/-- Each goroutine runs alongside the rest of the loop: what is known of a record when
    it is listed, and what is known of it once it was examined, must stand whatever the
    others do. -/
theorem stepAll_rule (shared : rely.together thread thread) {c : Controller} {interruptions : GoMap String Bool}
    {f : Fleet} {listed : Allocation → World γ → Prop} {examined : String → World γ → Prop}
    (listedStable : ∀ a, rely.Stable thread (listed a))
    (examines : ∀ a created, f.created.lookup a.id = some created →
      rely.Triple rules.semantics thread (listed a) (o.examine interruptions created a)
        fun failed w => failed = none → examined a.id w)
    (steps : ∀ id, rely.Triple rules.semantics thread (examined id) (o.stepWorker c interruptions id) fun _ _ => True)
    (allocs : List Allocation) :
    rely.Triple rules.semantics thread (fun w => ∀ a ∈ allocs, listed a w) (o.stepAll c interruptions f allocs)
      fun _ _ => True := by
  have stable (rest : List Allocation) : rely.Stable thread fun w => ∀ a ∈ rest, listed a w :=
    fun before after kept relied holds a member => listedStable a before after kept relied (holds a member)
  induction allocs with
  | nil => exact .done fun _ _ => trivial
  | cons a rest ih =>
    unfold Operator.stepAll
    split
    · exact .bind (ih.pre_mono fun w holds b member => holds b (List.mem_cons_of_mem _ member)) fun _ =>
        .done fun _ _ => trivial
    rename_i created stamped
    dsimp only
    -- the rest of the loop keeps the records it holds while this one is examined
    refine .bind (((examines a created stamped).frame shared (stable rest)).pre_mono fun w holds =>
      ⟨holds a List.mem_cons_self, fun b member => holds b (List.mem_cons_of_mem _ member)⟩) fun failed => ?_
    cases failed with
    | some e => exact .bind (ih.pre_mono fun w ⟨_, holds⟩ => holds) fun _ => .done fun _ _ => trivial
    | none =>
      have idle (w : World γ) (reply : Bool) (after : World γ)
          (executed : rules.semantics thread w .schedule reply after) : after = w := executed
      exact .bind (.both idle shared (fun _ => Rely.stable_pure True) (fun _ => Rely.stable_pure True)
        ((steps a.id).pre_mono fun w ⟨examined, _⟩ => examined rfl) (ih.pre_mono fun w ⟨_, holds⟩ => holds))
        fun _ => .done fun _ _ => trivial

/-! ## Reruns -/

/-- What a retry pass asks of GitHub, and its notes. -/
def retryRequest : ApiRequest → Prop
  | .attemptJobs _ _ _ _ | .rerunFailedJobs _ _ _ | .note _ => True
  | _ => False

/-- A fleet in which only the two maps of the retry pass differ. -/
def Retried (f after : Fleet) : Prop :=
  ∃ used reruns, after = { f with retriesUsedByRun := used, pendingReruns := reruns }

theorem Retried.refl (f : Fleet) : Retried f f := ⟨f.retriesUsedByRun, f.pendingReruns, rfl⟩

theorem Retried.trans {first second third : Fleet} (earlier : Retried first second) (later : Retried second third) :
    Retried first third := by
  obtain ⟨_, _, rfl⟩ := earlier
  obtain ⟨used, reruns, rfl⟩ := later
  exact ⟨used, reruns, rfl⟩

/-- What the parts of a retry pass have to keep. -/
structure Retries (rules : Rules γ) (rely : Rely (World γ)) (thread : Nat) (o : Operator) (pre : World γ → Prop) : Prop where
  respects : Respects rules rely
  own : o.config.name = rules.name
  stable : rely.Stable thread pre
  asks : ∀ request w reply after, retryRequest request → rely.invariant w → pre w →
    rules.semantics thread w request reply after → Keeps rely thread w after ∧ Evolves w after ∧ pre after
  opens : ∀ w after, rely.invariant w → pre w → FleetOpened rules thread w after → Keeps rely thread w after ∧ pre after
  saves : ∀ a x w stored after, interrupted a = true → x = a ∨ x = { a with retryProcessed := true } →
    rely.invariant w → pre w → RecordSeen a w → RecordSaved rules thread w x a.revision stored after →
    Keeps rely thread w after ∧ Evolves w after ∧ pre after
  fleet : ∀ cm f f' w after, (fleetOf cm).bind o.config = .ok f → Retried f f' → rely.invariant w → pre w →
    FleetSaved rules thread w cm f' after → Keeps rely thread w after ∧ pre after

/-- The fleet as it was read, to be saved over. -/
def FleetRead (rules : Rules γ) (cm : ConfigMap) (w : World γ) : Prop :=
  cm.name = fleetName rules.name ∧ cm.resourceVersion ≠ 0 ∧ Seen cm w

theorem FleetRead.of_lookup (respects : Respects rules rely) {w : World γ} (kept : rely.invariant w) {cm : ConfigMap}
    (found : w.maps.lookup (fleetName rules.name) = some cm) : FleetRead rules cm w := by
  have genuine := respects.wellFormed w kept _ _ found
  exact ⟨genuine.named, genuine.assigned, .of_lookup (respects.wellFormed w kept) found⟩

theorem fleetRead_stable (respects : Respects rules rely) (cm : ConfigMap) :
    rely.Stable thread (FleetRead rules cm) := fun before after kept relied ⟨named, assigned, seen⟩ =>
  ⟨named, assigned, seen_stable respects cm before after kept relied seen⟩

/-- What one turn knows: the records still to come, and the fleet. -/
structure Turn (rules : Rules γ) (cm : ConfigMap) (allocs : List Allocation) (w : World γ) : Prop where
  fleet : FleetRead rules cm w
  seen : ∀ a ∈ allocs, RecordSeen a w

variable {cm : ConfigMap} {allocs : List Allocation}

theorem Turn.evolves {w after : World γ} (turn : Turn rules cm allocs w) (evolves : Evolves w after) :
    Turn rules cm allocs after where
  fleet := ⟨turn.fleet.1, turn.fleet.2.1, turn.fleet.2.2.evolves evolves⟩
  seen := fun a member => (turn.seen a member).evolves evolves

namespace Retries

variable (retries : Retries rules rely thread o pre)

include retries

theorem turn_stable : rely.Stable thread fun w => pre w ∧ Turn rules cm allocs w :=
  retries.stable.and fun before after _ relied turn =>
    turn.evolves (retries.respects.evolves thread before after relied)

/-- A request to GitHub. -/
theorem ask {request : ApiRequest} (asked : retryRequest request) :
    rely.Triple rules.semantics thread (fun w => pre w ∧ Turn rules cm allocs w) (Program.ask (S := Api) request)
      fun _ w => pre w ∧ Turn rules cm allocs w := by
  refine .request retries.turn_stable fun w reply after kept ⟨holds, turn⟩ executed => ?_
  obtain ⟨⟨invariant, others⟩, evolves, still⟩ := retries.asks request w reply after asked kept holds executed
  exact ⟨invariant, others, still, turn.evolves evolves⟩

theorem reconcile (owner repo : String) (runID : Int) (pr : PendingRerun) :
    rely.Triple rules.semantics thread (fun w => pre w ∧ Turn rules cm allocs w)
      (reconcilePendingRerun owner repo runID pr) fun _ w => pre w ∧ Turn rules cm allocs w := by
  unfold reconcilePendingRerun
  refine .bind (retries.ask trivial) fun reply => ?_
  cases reply with
  | ok jobs =>
    dsimp only
    split <;> exact .done fun _ holds => holds
  | error e =>
    dsimp only
    split
    · exact .done fun _ holds => holds
    refine .bind (retries.ask trivial) fun reply => ?_
    cases reply with
    | error e => exact .done fun _ holds => holds
    | ok jobs =>
      dsimp only
      split
      · split <;> exact .done fun _ holds => holds
      · exact .done fun _ holds => holds

theorem request (a : Allocation) (f : Fleet) (jobs : List Recovery.RESTJob) :
    rely.Triple rules.semantics thread (fun w => pre w ∧ Turn rules cm allocs w) (o.requestRerun a f jobs)
      fun f' w => (pre w ∧ Turn rules cm allocs w) ∧ Retried f f' := by
  unfold Operator.requestRerun
  dsimp only
  split
  · exact .done fun w holds => ⟨holds, .refl f⟩
  refine .bind (retries.ask trivial) fun _ => ?_
  refine .bind (retries.ask trivial) fun reply => ?_
  cases reply with
  | none => exact .done fun w holds => ⟨holds, _, _, rfl⟩
  | some e =>
    dsimp only
    split
    · exact .done fun w holds => ⟨holds, .refl f⟩
    · exact .done fun w holds => ⟨holds, _, _, rfl⟩

theorem save {a x : Allocation} (interrupts : interrupted a = true) (member : a ∈ allocs)
    (same : x = a ∨ x = { a with retryProcessed := true }) :
    rely.Triple rules.semantics thread (fun w => pre w ∧ Turn rules cm allocs w) (o.saveProcessed x)
      fun _ w => pre w ∧ Turn rules cm allocs w := by
  have revision : x.revision = a.revision := by obtain rfl | rfl := same <;> rfl
  unfold Operator.saveProcessed
  rw [revision]
  by_cases present : a.revision = 0
  · exact fun w ⟨_, turn⟩ => absurd present (turn.seen a member).1
  have saves : rely.Triple rules.semantics thread (fun w => pre w ∧ Turn rules cm allocs w)
      (o.store.save x a.revision) fun _ w => pre w ∧ Turn rules cm allocs w := by
    refine save_triple retries.respects retries.own present retries.turn_stable (fun _ _ _ holds => holds) ?_
    intro w stored after kept ⟨holds, turn⟩ saved
    obtain ⟨keeps, evolves, still⟩ := retries.saves a x w stored after interrupts same kept holds (turn.seen a member) saved
    exact ⟨keeps, ⟨still, turn.evolves evolves⟩, fun _ => ⟨still, turn.evolves evolves⟩⟩
  refine .bind saves fun reply => ?_
  cases reply with
  | ok stored => exact .done fun _ holds => holds
  | error e =>
    dsimp only
    split <;> exact .done fun _ holds => holds

theorem evaluate {a : Allocation} (interrupts : interrupted a = true) (member : a ∈ allocs) (f : Fleet) :
    rely.Triple rules.semantics thread (fun w => pre w ∧ Turn rules cm allocs w) (o.evaluateRetry a f)
      fun result w => (pre w ∧ Turn rules cm allocs w) ∧ Retried f result.1 := by
  unfold Operator.evaluateRetry
  dsimp only
  refine .bind (retries.ask trivial) fun reply => ?_
  -- the flag is set unless a request of the run is still unresolved
  have finish (f' : Fleet) (retried : Retried f f') :
      rely.Triple rules.semantics thread (fun w => pre w ∧ Turn rules cm allocs w)
        (do return (f', ← o.saveProcessed
          (if (f'.pendingReruns.lookup a.runID).isSome then a else { a with retryProcessed := true })))
        fun result w => (pre w ∧ Turn rules cm allocs w) ∧ Retried f result.1 := by
    refine .bind (retries.save interrupts member ?_) fun failures => .done fun w holds => ⟨holds, retried⟩
    split
    · exact .inl rfl
    · exact .inr rfl
  cases reply with
  | error e => exact finish f (.refl f)
  | ok jobs =>
    refine .bind (retries.request a f jobs) fun f' => ?_
    by_cases retried : Retried f f'
    · exact (finish f' retried).pre_mono fun w holds => holds.1
    · exact fun w holds => absurd holds.2 retried

theorem process {a : Allocation} (interrupts : interrupted a = true) (member : a ∈ allocs) (f : Fleet) :
    rely.Triple rules.semantics thread (fun w => pre w ∧ Turn rules cm allocs w) (o.processRetry a f)
      fun result w => (pre w ∧ Turn rules cm allocs w) ∧ Retried f result.1 := by
  unfold Operator.processRetry
  split
  · exact retries.evaluate interrupts member f
  refine .bind (retries.reconcile a.owner a.repo a.runID _) fun resolved => ?_
  obtain ⟨outcome, resolved⟩ := resolved
  dsimp only
  refine .bind (retries.ask trivial) fun _ => ?_
  cases outcome with
  | confirmedHappened =>
    exact .bind (retries.save interrupts member (.inr rfl)) fun _ => .done fun w holds => ⟨holds, _, _, rfl⟩
  | confirmedDidNotHappen =>
    exact (retries.evaluate interrupts member _).mono fun result w ⟨holds, retried⟩ =>
      ⟨holds, Retried.trans ⟨_, _, rfl⟩ retried⟩
  | stillAmbiguous =>
    exact (retries.evaluate interrupts member _).mono fun result w ⟨holds, retried⟩ =>
      ⟨holds, Retried.trans ⟨_, _, rfl⟩ retried⟩

theorem loop (rest : List Allocation) (interrupts : ∀ a ∈ rest, interrupted a = true) (inside : rest ⊆ allocs)
    (f : Fleet) :
    rely.Triple rules.semantics thread (fun w => pre w ∧ Turn rules cm allocs w) (o.processRetries rest f)
      fun result w => (pre w ∧ Turn rules cm allocs w) ∧ Retried f result.1 := by
  induction rest generalizing f with
  | nil => exact .done fun w holds => ⟨holds, .refl f⟩
  | cons a rest ih =>
    unfold Operator.processRetries
    refine .bind (retries.process (interrupts a List.mem_cons_self) (inside List.mem_cons_self) f) fun one => ?_
    obtain ⟨f', failures⟩ := one
    refine .given (fun w holds => holds.2) fun retried => ?_
    refine .bind ((ih (fun b member => interrupts b (List.mem_cons_of_mem _ member))
      (fun b member => inside (List.mem_cons_of_mem _ member)) f').pre_mono fun w holds => holds.1) fun more => ?_
    exact .done fun w ⟨holds, later⟩ => ⟨holds, retried.trans later⟩

/-- A whole pass. -/
theorem pass : rely.Triple rules.semantics thread pre o.processInterruptionRetries fun _ w => pre w := by
  unfold Operator.processInterruptionRetries
  split
  · exact .done fun _ holds => holds
  have start : rely.Triple rules.semantics thread pre (Program.ask (S := Api) (.note .started)) fun _ w => pre w := by
    refine .request retries.stable fun w reply after kept holds executed => ?_
    obtain ⟨⟨invariant, others⟩, _, still⟩ := retries.asks (.note .started) w reply after trivial kept holds executed
    exact ⟨invariant, others, still⟩
  refine .bind start fun _ => ?_
  have list : rely.Triple rules.semantics thread pre o.store.list fun reply w =>
      pre w ∧ ∀ allocs, reply = .ok allocs → ∀ a ∈ allocs, RecordSeen a w := by
    refine list_triple retries.respects retries.own retries.stable (fun e w _ holds => ⟨holds, fun _ same => by cases same⟩) ?_
    intro allocs w kept holds lists
    refine ⟨holds, fun other same a member => ?_⟩
    cases same
    exact .of_record (retries.respects.wellFormed w kept) (lists.sound a member)
  refine .bind list fun reply => ?_
  cases reply with
  | error e => exact .done fun _ holds => holds.1
  | ok allocs =>
    dsimp only
    split
    · exact .done fun _ holds => holds.1
    let known (w : World γ) : Prop := pre w ∧ ∀ a ∈ allocs, RecordSeen a w
    have knownStable : rely.Stable thread known := retries.stable.and fun before after kept relied seen a member =>
      recordSeen_stable retries.respects a before after kept relied (seen a member)
    have load : rely.Triple rules.semantics thread known o.loadFleet fun reply w => known w ∧ ∀ cm f, reply = .ok (cm, f) →
        FleetRead rules cm w ∧ (fleetOf cm).bind o.config = .ok f := by
      refine loadFleet_triple retries.own knownStable (fun e w _ holds => ⟨holds, fun _ _ same => by cases same⟩) ?_ ?_
      · rintro w after kept ⟨holds, seen⟩ opened
        obtain ⟨keeps, still⟩ := retries.opens w after kept holds opened
        exact ⟨keeps, still, fun a member => (seen a member).evolves opened.evolves⟩
      · intro cm f w kept holds found bound
        refine ⟨holds, fun cm' f' same => ?_⟩
        cases same
        exact ⟨.of_lookup retries.respects kept found, bound⟩
    refine .bind (load.pre_mono fun w ⟨holds, listed⟩ => ⟨holds, listed allocs rfl⟩) fun reply => ?_
    cases reply with
    | error e => exact .done fun w holds => holds.1.1
    | ok pair =>
      obtain ⟨cm, f⟩ := pair
      dsimp only
      refine .given (fun w ⟨_, read⟩ => (read cm f rfl).2) fun bound => ?_
      have loop : rely.Triple rules.semantics thread (fun w => pre w ∧ Turn rules cm allocs w)
          (o.processRetries (allocs.filter interrupted) f)
          fun result w => (pre w ∧ Turn rules cm allocs w) ∧ Retried f result.1 :=
        retries.loop _ (fun a member => (List.mem_filter.mp member).2) (fun a member => (List.mem_filter.mp member).1) f
      refine .bind (loop.pre_mono fun w ⟨⟨holds, seen⟩, read⟩ => ⟨holds, (read cm f rfl).1, seen⟩) fun result => ?_
      obtain ⟨f', failures⟩ := result
      dsimp only
      refine .given (fun w holds => holds.2) fun retried => ?_
      have save : rely.Triple rules.semantics thread (fun w => pre w ∧ Turn rules cm allocs w) (saveFleet cm f')
          fun _ w => pre w := by
        refine saveFleet_triple retries.turn_stable (fun w _ holds => holds.2.fleet) (fun e w _ holds => holds.1) ?_
        intro w after kept holds saved
        obtain ⟨keeps, still⟩ := retries.fleet cm f f' w after bound retried kept holds.1 saved
        exact ⟨keeps, fun _ => still⟩
      refine .bind (save.pre_mono fun w holds => holds.1) fun failed => ?_
      cases failed <;> exact .done fun _ holds => holds

end Retries

/-! ## Admissions -/

/-- What goes into a batch besides the fleet. -/
def batchRequest : ApiRequest → Prop
  | .readCatalog _ | .observePrice _ | .now | .newUUID => True
  | _ => False

/-- What has to stand while a batch is put together. -/
structure Batches (rules : Rules γ) (rely : Rely (World γ)) (thread : Nat) (pre : World γ → Prop) : Prop where
  stable : rely.Stable thread pre
  asks : ∀ request w reply after, batchRequest request → rely.invariant w → pre w →
    rules.semantics thread w request reply after → Keeps rely thread w after ∧ pre after

namespace Batches

variable (batches : Batches rules rely thread pre)

include batches

theorem ask {request : ApiRequest} (asked : batchRequest request) :
    rely.Triple rules.semantics thread pre (Program.ask (S := Api) request) fun _ w => pre w := by
  refine .request batches.stable fun w reply after kept holds executed => ?_
  obtain ⟨⟨invariant, others⟩, still⟩ := batches.asks request w reply after asked kept holds executed
  exact ⟨invariant, others, still⟩

/-- A name that is drawn is not that of the fleet. -/
theorem draw : rely.Triple rules.semantics thread pre (Program.ask (S := Api) .newUUID) fun uuid w =>
    pre w ∧ allocationName uuid ≠ fleetName rules.name := by
  refine .request batches.stable fun w uuid after kept holds executed => ?_
  obtain ⟨⟨invariant, others⟩, still⟩ := batches.asks .newUUID w uuid after trivial kept holds executed
  exact ⟨invariant, others, still, executed.2.1⟩

theorem refreshOfferings (query : Placement.Offering → Option PriceQuery) (offerings : List Placement.Offering) :
    rely.Triple rules.semantics thread pre (refreshOfferings query offerings) fun _ w => pre w := by
  induction offerings with
  | nil => exact .done fun _ holds => holds
  | cons offering rest ih =>
    unfold Operator.refreshOfferings
    split
    · exact .bind ih fun _ => .done fun _ holds => holds
    · refine .bind (batches.ask trivial) fun reply => ?_
      cases reply <;> exact .bind ih fun _ => .done fun _ holds => holds

theorem refreshPrices (configured : Bool) (query : Placement.Offering → Option PriceQuery)
    (catalog : Placement.Catalog) :
    rely.Triple rules.semantics thread pre (refreshPrices configured query catalog) fun _ w => pre w := by
  unfold Operator.refreshPrices
  split
  · exact .done fun _ holds => holds
  · exact .bind (batches.refreshOfferings query _) fun _ => .done fun _ holds => holds

theorem withinBudget (f : Fleet) (allocs : List Allocation) (n : Int) :
    rely.Triple rules.semantics thread pre (o.withinBudget f allocs n) fun _ w => pre w := by
  unfold Operator.withinBudget
  split
  · exact .bind (batches.ask trivial) fun _ => .done fun _ holds => holds
  · exact .done fun _ holds => holds

variable {good : Fleet → Prop}

theorem stamp (grants : ∀ f id now catalog address, id ≠ fleetName rules.name → good f →
      good (o.grant f id now catalog address))
    (catalog : Placement.Catalog) (n : Nat) (addresses : List String) (f : Fleet) (holds : good f) :
    rely.Triple rules.semantics thread pre (o.stamp catalog n addresses f) fun f' w => pre w ∧ good f' := by
  induction n generalizing addresses f with
  | zero => exact .done fun w still => ⟨still, holds⟩
  | succ n ih =>
    unfold Operator.stamp
    refine .bind batches.draw fun uuid => ?_
    by_cases named : allocationName uuid = fleetName rules.name
    · exact fun w ⟨_, other⟩ => absurd named other
    have now : rely.Triple rules.semantics thread pre (Program.ask (S := Api) .now) fun _ w => pre w :=
      batches.ask trivial
    refine .bind (now.pre_mono fun w drawn => drawn.1) fun now => ?_
    exact ih _ _ (grants f _ now catalog _ named holds)

/-- The catalog and its prices are read before a batch is stamped. -/
theorem reads {f : Fleet} {allocs : List Allocation} {n : Int} {post : Except String Fleet → World γ → Prop}
    (refused : ∀ reason w, pre w → post (.error reason) w)
    (stamps : ∀ catalog, rely.Triple rules.semantics thread pre (o.stampBatch catalog f allocs n) post) :
    rely.Triple rules.semantics thread pre (o.batch f allocs n) post := by
  have read : rely.Triple rules.semantics thread pre o.catalog fun _ w => pre w := by
    unfold Operator.catalog
    split
    · exact .done fun _ still => still
    · exact batches.ask trivial
  unfold Operator.batch
  refine .bind read fun reply => ?_
  cases reply with
  | error e =>
    dsimp only
    split
    · exact .done (refused _)
    · exact stamps {}
  | ok catalog =>
    dsimp only
    refine .bind (batches.refreshPrices _ _ _) fun catalog => ?_
    refine .bind (batches.refreshPrices _ _ _) fun catalog => ?_
    refine .bind (batches.refreshPrices _ _ _) fun catalog => ?_
    split
    · refine .bind (batches.ask trivial) fun now => ?_
      split
      · exact .done (refused _)
      · exact stamps catalog
    · exact stamps catalog

/-- A batch that is not refused keeps whatever single admissions keep. -/
theorem batch (grants : ∀ f id now catalog address, id ≠ fleetName rules.name → good f →
      good (o.grant f id now catalog address))
    (f : Fleet) (allocs : List Allocation) (n : Int) (holds : good { f with condition := "DemandObserved" }) :
    rely.Triple rules.semantics thread pre (o.batch f allocs n) fun reply w =>
      pre w ∧ ∀ f', reply = .ok f' → good f' := by
  refine batches.reads (fun _ w still => ⟨still, fun _ same => by cases same⟩) fun catalog => ?_
  unfold Operator.stampBatch
  dsimp only
  split
  · exact .done fun w still => ⟨still, fun _ same => by cases same⟩
  · refine .bind (batches.stamp grants catalog n.toNat _ _ holds) fun f' => .done fun w ⟨still, kept⟩ => ?_
    refine ⟨still, fun other same => ?_⟩
    cases same
    exact kept

end Batches

end Rules

end RunnerScout.State
