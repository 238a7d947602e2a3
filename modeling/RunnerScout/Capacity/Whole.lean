import RunnerScout.Capacity.Admits
import RunnerScout.State.Replay

/-! # Admission is all or nothing

Every run of `HandleDesiredRunnerCount`, exit by exit: what it stores before its last
exchange, and the fleet that exchange saves.  A refused batch leaves the fleet as the
release of terminal allocations and the cohort reset leave it, whatever the budget took
off the batch before.
-/

namespace RunnerScout.Capacity

open Interaction Interaction.Program
open Lifecycle Placement Operator

/-! ## What a run asks for -/

/-- A request that changes what the cluster stores. -/
def stores : ApiRequest → Bool
  | .createMap _ | .updateMap _ | .deleteMap _ => true
  | _ => false

/-- A request that neither changes the cluster nor names an allocation. -/
def looks : ApiRequest → Bool
  | .newUUID => false
  | request => !stores request

/-- The allocation an exchange names. -/
def namedBy : Exchange Api → Option String
  | ⟨.newUUID, uuid⟩ => some ("rs-" ++ uuid)
  | _ => none

/-- The allocations named in a run, in order. -/
def named (trace : List (Exchange Api)) : List String := trace.filterMap namedBy

theorem not_stores_of_looks {request : ApiRequest} (looking : looks request = true) : stores request = false := by
  cases request <;> simp_all [looks, stores]

theorem named_of_looks {trace : List (Exchange Api)} (looking : ∀ x ∈ trace, looks x.request = true) :
    named trace = [] := by
  refine List.filterMap_eq_nil_iff.mpr fun x member => ?_
  have := looking x member
  obtain ⟨request, reply⟩ := x
  cases request <;> simp_all [namedBy, looks]

@[simp] theorem named_append (first second : List (Exchange Api)) :
    named (first ++ second) = named first ++ named second :=
  List.filterMap_append

section Reading

variable (o : Operator)

theorem list_looks (s : State.Kubernetes) : s.list.Only fun request : ApiRequest => looks request = true := by
  refine ⟨rfl, fun reply => ?_⟩
  cases reply <;> trivial

theorem refreshOfferings_looks (query : Offering → Option PriceQuery) :
    ∀ offerings, (refreshOfferings query offerings).Only fun request : ApiRequest => looks request = true
  | [] => trivial
  | offering :: rest => by
    unfold refreshOfferings
    cases query offering with
    | none => exact .bind (refreshOfferings_looks query rest) fun _ => trivial
    | some asked =>
      refine only_ask.mpr ⟨rfl, fun reply => ?_⟩
      cases reply with
      | error e => exact .bind (refreshOfferings_looks query rest) fun _ => trivial
      | ok quote => exact .bind (refreshOfferings_looks query rest) fun _ => trivial

theorem refreshPrices_looks (configured : Bool) (query : Offering → Option PriceQuery) (catalog : Catalog) :
    (refreshPrices configured query catalog).Only fun request : ApiRequest => looks request = true := by
  unfold refreshPrices
  cases configured with
  | false => trivial
  | true => exact .bind (refreshOfferings_looks query catalog.offerings) fun _ => trivial

theorem catalog_looks : o.catalog.Only fun request : ApiRequest => looks request = true := by
  unfold Operator.catalog
  split
  · trivial
  · exact ⟨rfl, fun _ => trivial⟩

end Reading

/-! ## Loading the fleet -/

/-- The exchanges that load the fleet: an absent one is created, empty, after the read
    that missed it. -/
def Loads (o : Operator) (trace : List (Exchange Api)) : Prop :=
  (∃ reply, trace = [⟨.getMap (fleetName o.config.name), reply⟩]) ∨
    ∃ e reply, errorIs (some e) .notFound = true ∧
      trace = [⟨.getMap (fleetName o.config.name), .error e⟩, ⟨.createMap (emptyFleetMap o.config.name), reply⟩]

theorem fleetMap_loads {o : Operator} {trace : List (Exchange Api)} {result : Except GoError ConfigMap}
    (run : (o.fleetMap true).Returns trace result) : Loads o trace := by
  obtain ⟨reply, later, rfl, rest⟩ := returns_ask.mp run
  cases reply with
  | ok cm =>
    obtain ⟨rfl, -⟩ := returns_pure.mp rest
    exact .inl ⟨.ok cm, rfl⟩
  | error e =>
    dsimp only at rest
    split at rest
    · obtain ⟨created, after, rfl, ends⟩ := returns_call.mp rest
      obtain ⟨rfl, -⟩ := returns_done.mp ends
      exact .inr ⟨e, created, ‹_›, rfl⟩
    · obtain ⟨rfl, -⟩ := returns_pure.mp rest
      exact .inl ⟨.error e, rfl⟩

theorem loadFleet_loads {o : Operator} {trace : List (Exchange Api)} {result : Except GoError (ConfigMap × Fleet)}
    (run : o.loadFleet.Returns trace result) : Loads o trace := by
  obtain ⟨first, second, map, rfl, loaded, rest⟩ := returns_bind.mp run
  have nothing : second = [] := by
    cases map with
    | error e => exact (returns_pure.mp rest).1
    | ok cm =>
      dsimp only at rest
      cases decoded : o.decodeFleet cm with
      | error e =>
        rw [decoded] at rest
        exact (returns_pure.mp rest).1
      | ok f =>
        rw [decoded] at rest
        exact (returns_pure.mp rest).1
  rw [nothing, List.append_nil]
  exact fleetMap_loads loaded

/-! ## The saved fleet -/

/-- The start of `Reconcile`: the admission state before it grants new slots. -/
def cohortReset (s : AdmissionState) (demand active : Int) : AdmissionState :=
  let s := if demand = 0 then { s with resetObserved := true } else s
  if s.resetObserved ∧ active = 0 then { s with cohort := s.cohort + 1, admitted := 0, resetObserved := false } else s

/-- The admission state a call starts from: terminal allocations have been released,
    and the cohort is reset unless admissions are suspended. -/
def baseline (o : Operator) (count : Int) (f : Fleet) (allocs : List Allocation) : AdmissionState :=
  if o.paused || o.draining then (release allocs f).admission
  else cohortReset (release allocs f).admission count (activeCount allocs (release allocs f))

theorem reconcile_grants {s after : AdmissionState} {demand active limit n : Int}
    (reconciled : s.reconcile demand active limit (active = 0) = .ok (n, after)) :
    0 ≤ n ∧ after = { cohortReset s demand active with admitted := (cohortReset s demand active).admitted + n } := by
  unfold AdmissionState.reconcile at reconciled
  split at reconciled
  · cases reconciled
  · simp only [decide_eq_true_eq, and_self] at reconciled
    cases reconciled
    exact ⟨by omega, rfl⟩

/-- The keys of a map after the given ones were added to it: nothing else changed. -/
structure Extends {V : Type} (ids : List String) (before after : GoMap String V) : Prop where
  added : ∀ id ∈ ids, id ∈ after
  kept : ∀ id, id ∉ ids → after.lookup id = before.lookup id
  fresh : ids.Nodup → (∀ id ∈ ids, id ∉ before) → after.keys.Perm (ids ++ before.keys)

theorem extends_insertAll {V : Type} {entries : List (String × V)} {before : GoMap String V} {ids : List String}
    (keys : entries.map Prod.fst = ids) : Extends ids before (GoMap.insertAll entries before) := by
  refine ⟨fun id member => ?_, fun id absent => ?_, fun nodup unused => ?_⟩
  · exact GoMap.mem_insertAll.mpr (.inl (keys ▸ member))
  · exact GoMap.lookup_insertAll_of_notMem (keys ▸ absent)
  · have apart : (ids ++ before.keys).Nodup := by
      refine List.nodup_append.mpr ⟨nodup, before.nodupKeys, fun id member other known same => ?_⟩
      exact unused id member (AList.mem_keys.mpr (same ▸ known))
    refine (List.perm_ext_iff_of_nodup (GoMap.insertAll entries before).nodupKeys apart).mpr fun id => ?_
    rw [List.mem_append, ← AList.mem_keys]
    exact GoMap.mem_insertAll.trans (by rw [keys])

/-- The fleet a refused batch is saved as. -/
structure Refuses (o : Operator) (count : Int) (f : Fleet) (allocs : List Allocation) (final : Fleet) : Prop where
  created : final.created = f.created
  pending : final.pending = f.pending
  reserved : final.reserved = f.reserved
  admission : final.admission = baseline o count f allocs
  condition : final.condition ∈
    if o.paused || o.draining then ["AdmissionsSuspended", "ScaleSetDeleting"]
    else ["BudgetExhausted", "CatalogUnavailable", "CatalogNotAdmissible", "OverlayAddressPoolExhausted"]

/-- The fleet an admitted batch is saved as: every slot the demand and the budget
    leave has a name, and each name an entry in every map. -/
structure Grants (o : Operator) (count : Int) (f : Fleet) (allocs : List Allocation) (ids : List String)
    (final : Fleet) : Prop where
  running : (o.paused || o.draining) = false
  whole : ∃ gate, granted o count f allocs gate = some (ids.length : Int)
  created : Extends ids f.created final.created
  pending : Extends ids f.pending final.pending
  reserved : if o.config.budgetDailyMicros > 0 then Extends ids f.reserved final.reserved
    else final.reserved = f.reserved
  admission : final.admission =
    { baseline o count f allocs with admitted := (baseline o count f allocs).admitted + ids.length }
  condition : final.condition = "DemandObserved"

theorem refuses_suspended {o : Operator} {count : Int} {f : Fleet} {allocs : List Allocation}
    (suspended : (o.paused || o.draining) = true) :
    Refuses o count f allocs { release allocs f with
      condition := if o.draining then "ScaleSetDeleting" else "AdmissionsSuspended" } := by
  refine ⟨release_created, release_pending, release_reserved, ?_, ?_⟩
  · rw [baseline, if_pos suspended]
  · rw [if_pos suspended]
    dsimp only
    split <;> decide

section Reconciled

variable {o : Operator} {count n : Int} {f : Fleet} {allocs : List Allocation} {admission : AdmissionState}

theorem baseline_running (running : (o.paused || o.draining) = false) : baseline o count f allocs =
    cohortReset (release allocs f).admission count (activeCount allocs (release allocs f)) := by
  unfold baseline
  rw [running]
  rfl

/-- An exit that refuses gives back exactly the slots `Reconcile` granted. -/
theorem refuses_refund (running : (o.paused || o.draining) = false)
    (reconciled : (release allocs f).admission.reconcile count (activeCount allocs (release allocs f))
      o.config.maxRunners (activeCount allocs (release allocs f) = 0) = .ok (n, admission))
    {reason : String} (refused : reason ∈
      ["BudgetExhausted", "CatalogUnavailable", "CatalogNotAdmissible", "OverlayAddressPoolExhausted"]) :
    Refuses o count f allocs
      { ({ release allocs f with admission := admission } : Fleet).refund n with condition := reason } := by
  obtain ⟨-, granted⟩ := reconcile_grants reconciled
  refine ⟨release_created, release_pending, release_reserved, ?_, ?_⟩
  · rw [← baseline_running running] at granted
    generalize baseline o count f allocs = base at granted ⊢
    subst granted
    simp only [Fleet.refund, Int.add_sub_cancel]
  · rw [running]
    exact refused

theorem grants_batch (running : (o.paused || o.draining) = false)
    (reconciled : (release allocs f).admission.reconcile count (activeCount allocs (release allocs f))
      o.config.maxRunners (activeCount allocs (release allocs f) = 0) = .ok (n, admission))
    {batch : List Slot} {gate : Time}
    (whole : (batch.length : Int) =
      if o.config.budgetDailyMicros > 0 then min n (affordable o.config f allocs gate) else n) :
    Grants o count f allocs (batch.map Slot.id)
      (admitAll o batch
        { ({ release allocs f with admission := admission } : Fleet).refund (n - batch.length) with
          condition := "DemandObserved" }) := by
  obtain ⟨-, granted⟩ := reconcile_grants reconciled
  have frame := admitAll_eq o batch
    { ({ release allocs f with admission := admission } : Fleet).refund (n - batch.length) with
      condition := "DemandObserved" }
  refine ⟨running, ⟨gate, ?_⟩, ?_, ?_, ?_, ?_, ?_⟩
  · rw [List.length_map, Capacity.granted, reconciled, whole]
  · rw [frame]
    simp only [Fleet.refund, release_created]
    exact extends_insertAll (stamps_keys batch)
  · rw [frame]
    simp only [Fleet.refund, release_pending]
    exact extends_insertAll (admissions_keys o batch)
  · rw [frame]
    simp only [Fleet.refund, release_reserved, reservations]
    split
    · exact extends_insertAll (by simp [Function.comp_def])
    · rfl
  · rw [← baseline_running running] at granted
    rw [frame, List.length_map]
    generalize baseline o count f allocs = base at granted ⊢
    subst granted
    have kept : base.admitted + n - (n - batch.length) = base.admitted + batch.length := by ring
    simp only [Fleet.refund, kept]
  · rw [frame]

end Reconciled

/-! ## The exits -/

section Exits

variable {o : Operator} {trace : List (Exchange Api)}

theorem withinBudget_returns {f : Fleet} {allocs : List Allocation} {n left : Int} (nonneg : 0 ≤ n)
    (run : (o.withinBudget f allocs n).Returns trace left) :
    (∀ x ∈ trace, looks x.request = true) ∧
      ∃ gate, left = if o.config.budgetDailyMicros > 0 then min n (affordable o.config f allocs gate) else n := by
  unfold Operator.withinBudget at run
  split at run
  · rename_i gated
    obtain ⟨gate, later, rfl, rest⟩ := returns_ask.mp run
    obtain ⟨rfl, rfl⟩ := returns_pure.mp rest
    refine ⟨List.forall_mem_singleton.mpr rfl, gate, ?_⟩
    rw [if_pos gated.2]
    split <;> omega
  · rename_i free
    obtain ⟨rfl, rfl⟩ := returns_pure.mp run
    refine ⟨List.forall_mem_nil _, 0, ?_⟩
    have := affordable_nonneg o.config f allocs 0
    split <;> omega

/-- The loop names as many allocations as it is asked for. -/
theorem stamp_returns {catalog : Catalog} : ∀ {n : Nat} {addresses : List String} {f final : Fleet}
    {trace : List (Exchange Api)}, (o.stamp catalog n addresses f).Returns trace final →
    (∀ x ∈ trace, stores x.request = false) ∧
      ∃ batch, final = admitAll o batch f ∧ batch.length = n ∧ batch.map Slot.id = named trace
  | 0, _, f, final, trace, run => by
    obtain ⟨rfl, rfl⟩ := returns_pure.mp run
    exact ⟨List.forall_mem_nil _, [], rfl, rfl, rfl⟩
  | n + 1, addresses, f, final, trace, run => by
    obtain ⟨uuid, rest, rfl, clocked⟩ := returns_ask.mp run
    obtain ⟨now, later, rfl, goesOn⟩ := returns_ask.mp clocked
    obtain ⟨quiet, batch, rfl, rfl, names⟩ := stamp_returns goesOn
    refine ⟨List.forall_mem_cons.mpr ⟨rfl, List.forall_mem_cons.mpr ⟨rfl, quiet⟩⟩,
      ⟨"rs-" ++ uuid, now, catalog, addresses.headD ""⟩ :: batch, rfl, rfl, ?_⟩
    rw [List.map_cons, names]
    rfl

/-- A batch is refused for one of these reasons, or stamped whole. -/
structure BatchOutcome (o : Operator) (f : Fleet) (n : Int) (trace : List (Exchange Api)) (result : Except String Fleet) :
    Prop where
  quiet : ∀ x ∈ trace, stores x.request = false
  refused : ∀ reason, result = .error reason →
    reason ∈ ["BudgetExhausted", "CatalogUnavailable", "CatalogNotAdmissible", "OverlayAddressPoolExhausted"]
  stamped : ∀ final, result = .ok final → ∃ batch, final = admitAll o batch { f with condition := "DemandObserved" } ∧
    batch.length = n.toNat ∧ batch.map Slot.id = named trace

theorem batchOutcome_refused {f : Fleet} {n : Int} {reason : String} (quiet : ∀ x ∈ trace, stores x.request = false)
    (known : reason ∈
      ["BudgetExhausted", "CatalogUnavailable", "CatalogNotAdmissible", "OverlayAddressPoolExhausted"]) :
    BatchOutcome o f n trace (.error reason) :=
  ⟨quiet, fun _ same => by cases same; exact known, fun _ same => by cases same⟩

theorem BatchOutcome.after {f : Fleet} {n : Int} {earlier : List (Exchange Api)} {result : Except String Fleet}
    (batched : BatchOutcome o f n trace result) (looking : ∀ x ∈ earlier, looks x.request = true) :
    BatchOutcome o f n (earlier ++ trace) result := by
  refine ⟨fun x member => ?_, batched.refused, fun final same => ?_⟩
  · obtain first | second := List.mem_append.mp member
    · exact not_stores_of_looks (looking x first)
    · exact batched.quiet x second
  · rw [named_append, named_of_looks looking, List.nil_append]
    exact batched.stamped final same

theorem stampBatch_returns {catalog : Catalog} {f : Fleet} {allocs : List Allocation} {n : Int}
    {result : Except String Fleet} (run : (o.stampBatch catalog f allocs n).Returns trace result) :
    BatchOutcome o f n trace result := by
  unfold Operator.stampBatch at run
  dsimp only at run
  split at run
  · obtain ⟨rfl, rfl⟩ := returns_pure.mp run
    exact batchOutcome_refused (List.forall_mem_nil _) (by decide)
  · obtain ⟨first, second, final, rfl, stamped, ends⟩ := returns_bind.mp run
    obtain ⟨rfl, rfl⟩ := returns_pure.mp ends
    obtain ⟨quiet, batch, rfl, sized, names⟩ := stamp_returns stamped
    rw [List.append_nil]
    refine ⟨quiet, fun reason same => (by cases same), fun final same => ?_⟩
    cases same
    exact ⟨batch, rfl, sized, names⟩

theorem batch_returns {f : Fleet} {allocs : List Allocation} {n : Int} {result : Except String Fleet}
    (run : (o.batch f allocs n).Returns trace result) : BatchOutcome o f n trace result := by
  obtain ⟨reading, later, read, rfl, readCatalog, rest⟩ := returns_bind.mp run
  refine BatchOutcome.after ?_ ((catalog_looks o).performs readCatalog).1
  cases read with
  | error e =>
    dsimp only at rest
    split at rest
    · obtain ⟨rfl, rfl⟩ := returns_pure.mp rest
      exact batchOutcome_refused (List.forall_mem_nil _) (by decide)
    · exact stampBatch_returns rest
  | ok catalog =>
    obtain ⟨_, later, awsPriced, rfl, aws, rest⟩ := returns_bind.mp rest
    refine BatchOutcome.after ?_ ((refreshPrices_looks _ _ _).performs aws).1
    obtain ⟨_, later, azurePriced, rfl, azure, rest⟩ := returns_bind.mp rest
    refine BatchOutcome.after ?_ ((refreshPrices_looks _ _ _).performs azure).1
    obtain ⟨_, later, priced, rfl, gcp, chosen⟩ := returns_bind.mp rest
    refine BatchOutcome.after ?_ ((refreshPrices_looks _ _ _).performs gcp).1
    split at chosen
    · obtain ⟨now, later, rfl, admissible⟩ := returns_ask.mp chosen
      have clock : ∀ x ∈ [(⟨.now, now⟩ : Exchange Api)], looks x.request = true := List.forall_mem_singleton.mpr rfl
      refine BatchOutcome.after ?_ clock
      split at admissible
      · obtain ⟨rfl, rfl⟩ := returns_pure.mp admissible
        exact batchOutcome_refused (List.forall_mem_nil _) (by decide)
      · exact stampBatch_returns admissible
    · exact stampBatch_returns chosen

/-- The error of a write. -/
def failure : Except GoError ConfigMap → Option GoError
  | .error e => some e
  | .ok _ => none

theorem saveFleet_returns {cm : ConfigMap} {f : Fleet} {err : Option GoError}
    (run : (saveFleet cm f).Returns trace err) :
    ∃ reply, trace = [⟨.updateMap (withFleet cm f), reply⟩] ∧ err = failure reply := by
  obtain ⟨reply, later, rfl, rest⟩ := returns_ask.mp run
  refine ⟨reply, ?_⟩
  cases reply with
  | error e =>
    obtain ⟨rfl, rfl⟩ := returns_pure.mp rest
    exact ⟨rfl, rfl⟩
  | ok cm =>
    obtain ⟨rfl, rfl⟩ := returns_pure.mp rest
    exact ⟨rfl, rfl⟩

end Exits

/-! ## Whole calls -/

/-- How a call ends once the fleet and the allocations are read: in an error with
    nothing stored, or with one save of the fleet. -/
def Decides (o : Operator) (count : Int) (cm : ConfigMap) (f : Fleet) (allocs : List Allocation)
    (trace : List (Exchange Api)) (err : Option GoError) : Prop :=
  ((∀ x ∈ trace, stores x.request = false) ∧ err ≠ none) ∨
    ∃ deciding final reply, trace = deciding ++ [⟨.updateMap (withFleet cm final), reply⟩] ∧
      (∀ x ∈ deciding, stores x.request = false) ∧ err = failure reply ∧
      (Refuses o count f allocs final ∨ Grants o count f allocs (named deciding) final)

section Decides

variable {o : Operator} {count : Int} {cm : ConfigMap} {f : Fleet} {allocs : List Allocation}
  {trace : List (Exchange Api)} {active known : Int} {err : Option GoError}

theorem decides_refused {deciding : List (Exchange Api)} {final : Fleet}
    (run : (saveFleet cm final >>= fun e => (pure (known, e) : Program Api _)).Returns trace (active, err))
    (quiet : ∀ x ∈ deciding, stores x.request = false) (refuses : Refuses o count f allocs final) :
    Decides o count cm f allocs (deciding ++ trace) err := by
  obtain ⟨first, second, saved, rfl, saving, ends⟩ := returns_bind.mp run
  obtain ⟨rfl, same⟩ := returns_pure.mp ends
  cases same
  obtain ⟨reply, rfl, rfl⟩ := saveFleet_returns saving
  exact .inr ⟨deciding, final, reply, by rw [List.append_nil], quiet, rfl, .inl refuses⟩

/-- The exits after `Reconcile`: the budget, the retained allocations, the batch. -/
theorem desire_decides
    (run : (o.desire count cm (release allocs f) allocs).Returns trace (active, err)) :
    Decides o count cm f allocs trace err := by
  unfold Operator.desire at run
  dsimp only at run
  split at run
  · exact decides_refused run (List.forall_mem_nil _) (refuses_suspended ‹_›)
  rename_i resumed
  have running : (o.paused || o.draining) = false := by simpa using resumed
  split at run
  · obtain ⟨rfl, same⟩ := returns_pure.mp run
    cases same
    exact .inl ⟨List.forall_mem_nil _, Option.some_ne_none _⟩
  rename_i n admission reconciled
  obtain ⟨gating, later, left, rfl, gated, rest⟩ := returns_bind.mp run
  obtain ⟨looked, gate, within⟩ := withinBudget_returns (reconcile_grants reconciled).1 gated
  have quiet : ∀ x ∈ gating, stores x.request = false := fun x member => not_stores_of_looks (looked x member)
  have affords : left = if o.config.budgetDailyMicros > 0 then min n (affordable o.config f allocs gate) else n := by
    rw [within]
    congr 2
    exact affordable_congr release_created release_reserved
  split at rest
  · rename_i exhausted
    refine decides_refused rest quiet ?_
    rw [exhausted.2, Int.sub_zero]
    exact refuses_refund running reconciled (by decide)
  split at rest
  · obtain ⟨rfl, same⟩ := returns_pure.mp rest
    cases same
    rw [List.append_nil]
    exact .inl ⟨quiet, Option.some_ne_none _⟩
  obtain ⟨batching, last, result, rfl, batching', ends⟩ := returns_bind.mp rest
  have batched := (batch_returns batching').after looked
  rw [← List.append_assoc]
  cases result with
  | error reason =>
    refine decides_refused ends batched.quiet ?_
    rw [refund_refund, Int.sub_add_cancel]
    exact refuses_refund running reconciled (batched.refused reason rfl)
  | ok final =>
    obtain ⟨first, second, saved, rfl, saving, closes⟩ := returns_bind.mp ends
    obtain ⟨reply, rfl, rfl⟩ := saveFleet_returns saving
    obtain ⟨batch, rfl, sized, names⟩ := batched.stamped final rfl
    have ended : second = [] ∧ err = failure reply := by
      cases reply with
      | error e =>
        obtain ⟨rfl, same⟩ := returns_pure.mp closes
        cases same
        exact ⟨rfl, rfl⟩
      | ok cm =>
        obtain ⟨rfl, same⟩ := returns_pure.mp closes
        cases same
        exact ⟨rfl, rfl⟩
    obtain ⟨rfl, rfl⟩ := ended
    have length : left = batch.length := by
      have := affordable_nonneg o.config f allocs gate
      have := (reconcile_grants reconciled).1
      split at affords <;> omega
    refine .inr ⟨gating ++ batching, _, reply, by rw [List.append_nil], batched.quiet, rfl, .inr ?_⟩
    rw [← names, length]
    exact grants_batch running reconciled (length ▸ affords)

end Decides

/-- A call loads the fleet, creating at most an absent one, and from there either ends
    in an error with nothing stored or stores one thing, last: the fleet it decided on
    from what it read.  That fleet takes the whole batch or none of it. -/
theorem handleDesiredRunnerCount_all_or_nothing {o : Operator} {count active : Int} {trace : List (Exchange Api)}
    {err : Option GoError} (run : (o.handleDesiredRunnerCount count).Returns trace (active, err)) :
    ∃ loading rest, trace = loading ++ rest ∧ Loads o loading ∧
      (((∀ x ∈ rest, stores x.request = false) ∧ err ≠ none) ∨
        ∃ cm f listing allocs deciding, o.loadFleet.Returns loading (.ok (cm, f)) ∧
          o.store.list.Returns listing (.ok allocs) ∧ (∀ x ∈ listing, stores x.request = false) ∧
          rest = listing ++ deciding ∧ Decides o count cm f allocs deciding err) := by
  obtain ⟨loading, rest, loaded, rfl, load, goesOn⟩ := returns_bind.mp run
  refine ⟨loading, rest, rfl, loadFleet_loads load, ?_⟩
  cases loaded with
  | error e =>
    obtain ⟨rfl, same⟩ := returns_pure.mp goesOn
    cases same
    exact .inl ⟨List.forall_mem_nil _, Option.some_ne_none _⟩
  | ok pair =>
    obtain ⟨cm, f⟩ := pair
    obtain ⟨listing, deciding, listed, rfl, lists, decides⟩ := returns_bind.mp goesOn
    have quiet : ∀ x ∈ listing, stores x.request = false :=
      fun x member => not_stores_of_looks (((list_looks o.store).performs lists).1 x member)
    cases listed with
    | error e =>
      obtain ⟨rfl, same⟩ := returns_pure.mp decides
      cases same
      rw [List.append_nil]
      exact .inl ⟨quiet, Option.some_ne_none _⟩
    | ok allocs => exact .inr ⟨cm, f, listing, allocs, deciding, load, lists, quiet, rfl, desire_decides decides⟩

/-- A budget for one of the two runners asked for, and a catalog that cannot be read. -/
def scarce : Operator where
  config := {
    name := "a"
    maxRunners := 3
    catalogPath := "catalog.json"
    budgetDailyMicros := 3
    requirements := { maxPriceMicros := 2 * 3600 } }

/-- A cluster that has nothing yet. -/
def emptyCluster : (request : ApiRequest) → ApiReply request
  | .getMap _ => .error ⟨[.notFound], "not found"⟩
  | .createMap cm | .updateMap cm => .ok cm
  | .listMaps _ _ => .ok []
  | request => State.silence request

def scarceCall : List (Exchange Api) × Int × Option GoError :=
  (scarce.handleDesiredRunnerCount 2).respond emptyCluster

/-- The condition of the fleet an update stores. -/
def storedCondition (x : Exchange Api) : Option String :=
  match x.request with
  | .updateMap cm => some (State.fleetOf cm).condition
  | _ => none

/-- The budget takes one of two slots off the batch, and the catalog refuses the other. -/
theorem handleDesiredRunnerCount_all_or_nothing_scarce :
    scarceCall.1.length = 6 ∧ scarceCall.2 = (0, none) ∧
      ∃ cm f allocs final reply, ⟨.updateMap (withFleet cm final), reply⟩ ∈ scarceCall.1 ∧
        Refuses scarce 2 f allocs final := by
  have answer : scarceCall.2 = (0, none) := by decide +kernel
  have run : (scarce.handleDesiredRunnerCount 2).Returns scarceCall.1 (0, none) := by
    rw [← answer]
    exact returns_respond emptyCluster (scarce.handleDesiredRunnerCount 2)
  refine ⟨by decide +kernel, answer, ?_⟩
  obtain ⟨loading, rest, same, -, failed | ⟨cm, f, listing, allocs, deciding, -, -, -, rfl, decides⟩⟩ :=
    handleDesiredRunnerCount_all_or_nothing run
  · exact absurd rfl failed.2
  · obtain failed | ⟨earlier, final, reply, rfl, -, -, saved⟩ := decides
    · exact absurd rfl failed.2
    · have member : ⟨.updateMap (withFleet cm final), reply⟩ ∈ scarceCall.1 := by
        rw [same]
        simp
      refine ⟨cm, f, allocs, final, reply, member, saved.resolve_right fun grants => ?_⟩
      have condition : final.condition ∈ scarceCall.1.filterMap storedCondition := List.mem_filterMap.mpr ⟨_, member, rfl⟩
      rw [show scarceCall.1.filterMap storedCondition = ["CatalogUnavailable"] by decide +kernel, grants.condition] at condition
      exact absurd condition (by decide)

end RunnerScout.Capacity
