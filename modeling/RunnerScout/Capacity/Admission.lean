import RunnerScout.Capacity.Workers

/-! # `HandleDesiredRunnerCount` is one move

Between reading the fleet and saving it, a call reads the records, the prices and
the clock and draws names; its save is applied to the very fleet it read.  From what
it still knows then about the records, the save is the `Move.grant` of the books.
-/

namespace RunnerScout.Capacity

open Interaction Lifecycle Operator State

variable {w : Cluster} {f : Fleet}

/-! ## Reading and saving the fleet -/

/-- The fleet a call has read, to be saved at its version. -/
structure Held (s : Setting) (cm : ConfigMap) (w : Cluster) : Prop where
  named : cm.name = fleetName s.name
  assigned : cm.resourceVersion ≠ 0
  seen : Seen cm w
  stamped : ∀ id stamp, (fleetOf cm).created.lookup id = some stamp → s.Later stamp w.clock
  drawn : ∀ id ∈ (fleetOf cm).created, id ∈ w.drawn

section Fleet

variable {s : Setting} {J : Cluster → Prop} {thread : Nat} {pre : Cluster → Prop}

theorem books_fleet {cm : ConfigMap} (found : w.maps.lookup (fleetName s.name) = some cm) :
    (s.books w).fleet = fleetOf cm := fleet_of_lookup found

theorem Held.of_lookup {cm : ConfigMap} (kept : s.Invariant J w) (found : w.maps.lookup (fleetName s.name) = some cm) :
    Held s cm w := by
  have genuine := kept.wellFormed _ _ found
  have fleet := books_fleet found
  refine ⟨genuine.named, genuine.assigned, .of_lookup kept.wellFormed found, fun id stamp known => ?_, fun id member => ?_⟩
  · rw [← fleet] at known
    exact (kept.sound.stamped id stamp known).2
  · rw [← fleet] at member
    exact kept.sound.drawn id member

theorem Held.grows {after : Cluster} {cm : ConfigMap} (held : Held s cm w) (evolves : Evolves w after)
    (grows : Grows s (s.books w) (s.books after)) : Held s cm after where
  named := held.named
  assigned := held.assigned
  seen := held.seen.evolves evolves
  stamped := fun id stamp known => (held.stamped id stamp known).trans grows.clock
  drawn := fun id member => grows.drawn (held.drawn id member)

theorem held_stable (cm : ConfigMap) : (s.workers J).Stable thread (Held s cm) :=
  fun _ _ _ relied held => held.grows relied.1 relied.2

/-- What is stable among workers is stable for the whole call. -/
theorem stable_of_workers (stable : (s.workers J).Stable thread pre) : (s.rely J).Stable thread pre :=
  fun before after kept relied holds => stable before after kept ⟨relied.1, relied.2.1⟩ holds

/-- A fleet that is stored now and was read before was stored all the time in between. -/
theorem Held.throughout {after : Cluster} {cm : ConfigMap} (seen : Seen cm w) (evolves : Evolves w after)
    (found : after.maps.lookup (fleetName s.name) = some cm) : w.maps.lookup (fleetName s.name) = some cm := by
  obtain before | newer := evolves.maps _ cm found
  · exact before
  · exact absurd newer (Nat.not_lt.mpr seen.1)

theorem loadFleet_held (preserved : Preserved s J) {o : Operator} (own : o.config.name = s.name)
    (stable : (s.workers J).Stable thread pre) :
    s.WorkerTriple J thread pre o.loadFleet fun reply w =>
      s.Invariant J w ∧ pre w ∧ ∀ cm f, reply = .ok (cm, f) →
        w.maps.lookup (fleetName s.name) = some cm ∧ (fleetOf cm).bind o.config = .ok f := by
  refine loadFleet_triple own stable ?_ ?_ ?_
  · exact fun e w kept holds => ⟨kept, holds, fun _ _ same => by cases same⟩
  · intro w after kept holds opened
    obtain ⟨act, same⟩ := act_opened kept.wellFormed opened
    have keeps := act.keepsWorkers preserved kept (by rw [same]; exact .refl _)
    exact ⟨keeps, stable w after keeps.1 (keeps.2 thread trivial) holds⟩
  · intro cm f w kept holds found binds
    refine ⟨kept, holds, fun cm' f' same => ?_⟩
    cases same
    exact ⟨found, binds⟩

/-- Saving the fleet that was read: one move of the books. -/
theorem saveFleet_move (preserved : Preserved s J) {cm : ConfigMap} {post : Option GoError → Cluster → Prop}
    (stable : (s.rely J).Stable thread pre) (held : ∀ w, pre w → Held s cm w)
    (failed : ∀ e w, s.Invariant J w → pre w → post (some e) w)
    (moves : ∀ w, s.Invariant J w → pre w → w.maps.lookup (fleetName s.name) = some cm →
      Move s thread (s.books w) { s.books w with fleet := f } ∧
        ∀ after, s.Invariant J after → Evolves w after → s.books after = { s.books w with fleet := f } →
          ∀ e, post e after) :
    s.Triple J thread pre (saveFleet cm f) post := by
  refine saveFleet_triple stable (fun w _ holds => ?_) failed ?_
  · have held := held w holds
    exact ⟨held.named, held.assigned, held.seen⟩
  · intro w after kept holds saved
    obtain ⟨move, reached⟩ := moves w kept holds saved.1
    obtain ⟨act, same⟩ := act_fleetSaved kept.wellFormed saved move
    obtain ⟨invariant, others⟩ := act.keeps preserved kept
    exact ⟨⟨invariant, others⟩, reached after invariant act.evolves same⟩

end Fleet

/-! ## What a call knows when it saves -/

/-- The fleet read and, while it was stored, the records listed. -/
def Counted (s : Setting) (J : Cluster → Prop) (cm : ConfigMap) (allocs : List Allocation) (w : Cluster) : Prop :=
  Held s cm w ∧ ∃ before, s.Invariant J before ∧ Lists before allocs ∧ Seen cm before ∧ Evolves before w ∧
    Grows s (s.books before) (s.books w)

/-- The clock was read at the budget gate, after every stamp of the fleet read. -/
def Gated (s : Setting) (J : Cluster → Prop) (cm : ConfigMap) (allocs : List Allocation) (gate : Time)
    (w : Cluster) : Prop :=
  Counted s J cm allocs w ∧ (∀ id stamp, (fleetOf cm).created.lookup id = some stamp → s.Later stamp gate) ∧
    s.Later gate w.clock

/-- The part of a batch that is stamped already. -/
structure Batched (s : Setting) (cm : ConfigMap) (gate : Time) (batch : List Slot) (w : Cluster) : Prop where
  nodup : (batch.map Slot.id).Nodup
  unused : ∀ slot ∈ batch, slot.id ∉ (fleetOf cm).created
  drawn : ∀ slot ∈ batch, slot.id ∈ w.drawn
  stamped : ∀ slot ∈ batch, s.Shown slot.now ∧ s.Later gate slot.now ∧ s.Later slot.now w.clock

section Knowledge

variable {s : Setting} {J : Cluster → Prop} {thread : Nat} {cm : ConfigMap} {allocs : List Allocation} {gate : Time}
  {batch : List Slot}

theorem counted_stable : (s.workers J).Stable thread (Counted s J cm allocs) := by
  rintro w after _ ⟨evolves, grows⟩ ⟨held, before, kept, lists, seen, evolved, grown⟩
  exact ⟨held.grows evolves grows, before, kept, lists, seen, evolved.trans evolves, grown.trans grows⟩

theorem gated_stable : (s.workers J).Stable thread (Gated s J cm allocs gate) :=
  fun w after kept relied ⟨counted, stamps, past⟩ =>
    ⟨counted_stable w after kept relied counted, stamps, past.trans relied.2.clock⟩

theorem batched_stable : (s.workers J).Stable thread (Batched s cm gate batch) :=
  fun _ _ _ relied batched =>
    ⟨batched.nodup, batched.unused, fun slot member => relied.2.drawn (batched.drawn slot member),
      fun slot member =>
        let ⟨shown, since, past⟩ := batched.stamped slot member
        ⟨shown, since, past.trans relied.2.clock⟩⟩

/-- The fleet is still the one read, so whatever was recorded since was pending in it. -/
theorem Counted.tallied (counted : Counted s J cm allocs w) (kept : s.Invariant J w)
    (found : w.maps.lookup (fleetName s.name) = some cm) : Tallied (s.books w) allocs := by
  obtain ⟨_, before, keptBefore, lists, seen, evolves, grows⟩ := counted
  have same : (s.books w).fleet = (s.books before).fleet := by
    rw [books_fleet found, books_fleet (Held.throughout seen evolves found)]
  refine ⟨lists.nodup, fun a member => grows.records a.id a (lists.sound a member), fun id present => ?_⟩
  cases listed : before.record id with
  | some a =>
    have named := keptBefore.wellFormed.record_id listed
    exact .inl (List.mem_map.mpr ⟨a, lists.complete id a listed, named⟩)
  | none =>
    obtain waiting | uncreated := grows.materialised id listed present
    · rw [same]
      exact .inr waiting
    · rw [← same] at uncreated
      exact absurd (kept.sound.recordCreated id present) uncreated

theorem Batched.timely (batched : Batched s cm gate batch w) (gated : Gated s J cm allocs gate w)
    (found : w.maps.lookup (fleetName s.name) = some cm) : Timely s (s.books w) gate batch := by
  refine ⟨batched.nodup, ?_, batched.drawn, ?_, batched.stamped⟩
  · rw [books_fleet found]
    exact batched.unused
  · rw [books_fleet found]
    exact gated.2.1

theorem batched_nil : Batched s cm gate [] w :=
  ⟨List.nodup_nil, fun _ member => (List.not_mem_nil member).elim, fun _ member => (List.not_mem_nil member).elim,
    fun _ member => (List.not_mem_nil member).elim⟩

end Knowledge

/-! ## Reads -/

section Reads

variable {s : Setting} {J : Cluster → Prop} {thread : Nat} {pre : Cluster → Prop} {o : Operator}

/-- Calls to other services say nothing about the cluster. -/
theorem ask_outside {request : ApiRequest} (stable : (s.workers J).Stable thread pre)
    (outside : ∀ w reply after, s.rules.semantics thread w request reply after →
      ∃ history, history = w.history ∧ after = { w with history := history }) :
    s.WorkerTriple J thread pre (Program.ask (S := Api) request) fun _ w => pre w := by
  refine (outside_triple stable fun w reply after executed => ?_).mono fun _ _ ⟨_, holds⟩ => holds
  obtain ⟨_, rfl, rfl⟩ := outside w reply after executed
  rfl

/-- What is read for a batch keeps whatever growth keeps. -/
theorem batches (preserved : Preserved s J) (stable : (s.workers J).Stable thread pre) :
    Batches s.rules (s.workers J) thread pre := by
  refine ⟨stable, fun request w reply after asked kept holds executed => ?_⟩
  have moved : Act s thread w after ∧ Grows s (s.books w) (s.books after) := by
    cases request with
    | readCatalog | observePrice =>
      obtain ⟨_, rfl, rfl⟩ := executed
      exact ⟨⟨.idle, .inl ⟨rfl, rfl⟩, id, .refl _⟩, .refl _⟩
    | now =>
      obtain ⟨shown, rfl⟩ := executed
      exact ⟨act_clock shown, grows_clock shown⟩
    | newUUID =>
      obtain ⟨unused, notFleet, rfl⟩ := executed
      exact ⟨act_draw unused notFleet, grows_draw⟩
    | _ => exact asked.elim
  have keeps := moved.1.keepsWorkers preserved kept moved.2
  exact ⟨keeps, stable w after keeps.1 (keeps.2 thread trivial) holds⟩

end Reads

/-! ## The batch -/

section Batch

variable {s : Setting} {J : Cluster → Prop} {thread : Nat} {o : Operator} {cm : ConfigMap} {allocs : List Allocation}

theorem overlayAddresses_length : ∀ {n : Nat} {taken addresses : List String},
    o.overlayAddresses n taken = .ok addresses → addresses.length = n
  | 0, _, _, found => by
    cases found
    rfl
  | n + 1, taken, addresses, found => by
    unfold Operator.overlayAddresses at found
    split at found
    · cases found
    split at found
    · cases found
    cases found
    rename_i more
    rw [List.length_cons, overlayAddresses_length more]

/-- A batch has its overlay addresses from the pool of the call. -/
def Addressed (o : Operator) (f : Fleet) (allocs : List Allocation) (batch : List Slot) : Prop :=
  batch ≠ [] → o.config.networkProfile ≠ "" →
    o.overlayAddresses batch.length (o.overlayTaken allocs f) = .ok (batch.map Slot.address)

/-- The pool depends on the pending admissions of the fleet and nothing else of it. -/
theorem Addressed.congr {f' : Fleet} {batch : List Slot} (addressed : Addressed o f allocs batch)
    (pending : f'.pending = f.pending) : Addressed o f' allocs batch := by
  have same : o.overlayTaken allocs f' = o.overlayTaken allocs f := by simp only [Operator.overlayTaken, pending]
  intro nonempty profile
  rw [same]
  exact addressed nonempty profile

/-- The loop that names and stamps the new allocations. -/
theorem stamp_triple (preserved : Preserved s J) {gate : Time} (catalog : Placement.Catalog) (n : Nat)
    (addresses : List String) (batch : List Slot) (f : Fleet) :
    s.WorkerTriple J thread
      (fun w => Gated s J cm allocs gate w ∧ Batched s cm gate batch w)
      (o.stamp catalog n addresses (admitAll o batch f))
      fun f' w => ∃ all, f' = admitAll o all f ∧ all.length = batch.length + n ∧
        (addresses.length = n → all.map Slot.address = batch.map Slot.address ++ addresses) ∧
        Gated s J cm allocs gate w ∧ Batched s cm gate all w := by
  induction n generalizing addresses batch with
  | zero =>
    refine .done fun _ held => ⟨batch, rfl, rfl, fun none => ?_, held⟩
    rw [List.eq_nil_of_length_eq_zero none, List.append_nil]
  | succ n ih =>
    have stable : (s.workers J).Stable thread fun w => Gated s J cm allocs gate w ∧ Batched s cm gate batch w :=
      gated_stable.and batched_stable
    let known (id : String) : Prop := id ∈ (fleetOf cm).created ∨ id ∈ batch.map Slot.id
    unfold Operator.stamp
    refine .bind (newUUID_triple preserved stable known ?_) fun uuid => ?_
    · rintro w ⟨⟨⟨held, _⟩, _⟩, batched⟩ id (old | new)
      · exact held.drawn id old
      · obtain ⟨slot, member, rfl⟩ := List.mem_map.mp new
        exact batched.drawn slot member
    have drawnStable : (s.workers J).Stable thread fun w => (Gated s J cm allocs gate w ∧ Batched s cm gate batch w) ∧
        allocationName uuid ∈ w.drawn ∧ ¬ known (allocationName uuid) :=
      stable.and fun _ _ _ relied named => ⟨relied.2.drawn named.1, named.2⟩
    refine .bind ((now_triple preserved drawnStable).pre_mono fun _ held => held.2) fun now => ?_
    let slot : Slot := ⟨allocationName uuid, now, catalog, addresses.headD ""⟩
    have step : o.grant (admitAll o batch f) ("rs-" ++ uuid) now catalog (addresses.headD "") =
        admitAll o (batch ++ [slot]) f := by
      simp only [admitAll, List.foldl_append, List.foldl_cons, List.foldl_nil]
      rfl
    rw [step]
    refine ((ih addresses.tail (batch ++ [slot])).mono ?_).pre_mono ?_
    · rintro f' w ⟨all, same, length, addressed, rest⟩
      refine ⟨all, same, ?_, fun size => ?_, rest⟩
      · simp only [length, List.length_append, List.length_cons, List.length_nil]
        omega
      · cases addresses with
        | nil => cases size
        | cons first others =>
          rw [addressed (Nat.succ.inj size), List.map_append, List.append_assoc]
          rfl
    · rintro w ⟨_, ⟨⟨gated, batched⟩, drawn, fresh⟩, clock, shown⟩
      simp only [known, not_or] at fresh
      refine ⟨gated, ?_, ?_, ?_, ?_⟩
      · rw [List.map_append, List.nodup_append]
        refine ⟨batched.nodup, List.nodup_singleton _, fun id member other last => ?_⟩
        rintro rfl
        have same : id = allocationName uuid := List.mem_singleton.mp last
        rw [same] at member
        exact fresh.2 member
      all_goals
        intro other member
        obtain old | new := List.mem_append.mp member
      · exact batched.unused other old
      · rw [List.mem_singleton.mp new]
        exact fresh.1
      · exact batched.drawn other old
      · rw [List.mem_singleton.mp new]
        exact drawn
      · exact batched.stamped other old
      · rw [List.mem_singleton.mp new]
        have since := gated.2.2
        rw [clock] at since ⊢
        exact ⟨shown, since, .refl⟩

theorem stampBatch_triple (preserved : Preserved s J) {gate : Time} (catalog : Placement.Catalog) (f : Fleet) (n : Int) :
    s.WorkerTriple J thread (Gated s J cm allocs gate) (o.stampBatch catalog f allocs n)
      fun reply w => Gated s J cm allocs gate w ∧ ∀ f', reply = .ok f' →
        ∃ batch, f' = admitAll o batch { f with condition := "DemandObserved" } ∧ batch.length = n.toNat ∧
          Addressed o f allocs batch ∧ Batched s cm gate batch w := by
  unfold Operator.stampBatch
  dsimp only
  split
  · exact .done fun w gated => ⟨gated, fun _ same => by cases same⟩
  · rename_i addresses found
    refine .bind ((stamp_triple preserved catalog n.toNat addresses [] { f with condition := "DemandObserved" }).pre_mono
      fun w gated => ⟨gated, batched_nil⟩) fun f' => .done ?_
    rintro w ⟨batch, same, length, addressed, gated, batched⟩
    refine ⟨gated, fun other equal => ?_⟩
    cases equal
    rw [List.length_nil, Nat.zero_add] at length
    refine ⟨batch, same, length, fun nonempty profile => ?_, batched⟩
    have positive := List.length_pos_iff.mpr nonempty
    rw [if_pos ⟨by omega, profile⟩] at found
    rw [length, addressed (overlayAddresses_length found)]
    exact found

/-- The catalog, its prices, and the new allocations, or the reason for refusing them. -/
theorem batch_triple (preserved : Preserved s J) {gate : Time} (f : Fleet) (n : Int) :
    s.WorkerTriple J thread (Gated s J cm allocs gate) (o.batch f allocs n)
      fun reply w => Gated s J cm allocs gate w ∧ ∀ f', reply = .ok f' →
        ∃ batch, f' = admitAll o batch { f with condition := "DemandObserved" } ∧ batch.length = n.toNat ∧
          Addressed o f allocs batch ∧ Batched s cm gate batch w :=
  (batches preserved gated_stable).reads (fun _ w gated => ⟨gated, fun _ same => by cases same⟩) fun catalog =>
    stampBatch_triple preserved catalog f n

/-- The budget gate, with the instant it was passed at. -/
theorem withinBudget_triple (preserved : Preserved s J) (f : Fleet) {n : Int} (positive : 0 ≤ n) :
    s.WorkerTriple J thread (fun w => s.Invariant J w ∧ Counted s J cm allocs w)
      (o.withinBudget f allocs n)
      fun left w => ∃ gate, Gated s J cm allocs gate w ∧ 0 ≤ left ∧ left ≤ n ∧
        (0 < left → left = if o.config.budgetDailyMicros > 0 then min n (affordable o.config f allocs gate) else n) := by
  unfold Operator.withinBudget
  split
  · rename_i limited
    refine .bind ((now_triple preserved counted_stable).pre_mono fun w ⟨_, counted⟩ => counted) fun now => .done ?_
    rintro w ⟨kept, counted, clock, _⟩
    refine ⟨now, ⟨counted, ?_, clock ▸ .refl⟩, ?_⟩
    · intro id stamp found
      exact clock ▸ counted.1.stamped id stamp found
    · have afford := affordable_nonneg o.config f allocs now
      rw [if_pos limited.2]
      split
      · exact ⟨afford, by omega, fun _ => by omega⟩
      · exact ⟨positive, Int.le_refl _, fun _ => by omega⟩
  · rename_i unlimited
    refine .done fun w ⟨_, counted⟩ => ⟨w.clock, ⟨counted, counted.1.stamped, .refl⟩, positive, Int.le_refl _, ?_⟩
    intro some
    rw [if_neg fun budget => unlimited ⟨some, budget⟩]

end Batch

/-! ## The call -/

section Call

variable {s : Setting} {J : Cluster → Prop} {thread : Nat} {o : Operator} {count : Int} {cm : ConfigMap}
  {allocs : List Allocation}

/-- Saving what the call has decided. -/
theorem saveFleet_grant (preserved : Preserved s J) (call : s.calls thread = .desiredRunnerCount o count)
    {after : Fleet} (bound : (fleetOf cm).bind o.config = .ok f) {gate : Time} {batch : List Slot}
    (admits : Admits o count f allocs gate batch after) :
    s.Triple J thread
      (fun w => Gated s J cm allocs gate w ∧ Batched s cm gate batch w) (saveFleet cm after) fun _ _ => True := by
  refine saveFleet_move preserved (stable_of_workers (gated_stable.and batched_stable)) (fun w holds => holds.1.1.1)
    (fun _ _ _ _ => trivial) ?_
  rintro w kept ⟨gated, batched⟩ found
  rw [← books_fleet found] at bound
  exact ⟨.grant o count f after allocs gate batch call bound (gated.1.tallied kept found) (batched.timely gated found)
    admits, fun _ _ _ _ _ => trivial⟩

theorem desire_triple (preserved : Preserved s J) (call : s.calls thread = .desiredRunnerCount o count)
    (bound : (fleetOf cm).bind o.config = .ok f) :
    s.Triple J thread (fun w => s.Invariant J w ∧ Counted s J cm allocs w)
      (o.desire count cm (release allocs f) allocs) fun _ _ => True := by
  unfold Operator.desire
  dsimp only
  split
  · -- suspended: nothing is admitted, the gate is the present instant
    have gated (w : Cluster) (counted : Counted s J cm allocs w) : Gated s J cm allocs w.clock w :=
      ⟨counted, counted.1.stamped, .refl⟩
    refine .bind (.pre_mono (.exists_pre fun gate => saveFleet_grant preserved call bound
      (@admits_suspended o count f allocs gate _)) fun w holds => ⟨w.clock, gated w holds.2, batched_nil⟩)
      fun _ => .done fun _ _ => trivial
  split
  · exact .done fun _ _ => trivial
  rename_i n admission reconciled
  have positive := (reconcile_spec reconciled).1
  refine .bind (of_workers (withinBudget_triple preserved _ positive)) fun left => ?_
  refine .exists_pre fun gate => ?_
  by_cases within : 0 ≤ left ∧ left ≤ n ∧ (0 < left → left = if o.config.budgetDailyMicros > 0
      then min n (affordable o.config { release allocs f with admission := admission } allocs gate) else n)
  swap
  · exact fun w holds => absurd holds.2 within
  obtain ⟨nonneg, fits, whole⟩ := within
  have gate_eq : affordable o.config { release allocs f with admission := admission } allocs gate =
      affordable o.config f allocs gate := affordable_congr release_created release_reserved
  rw [gate_eq] at whole
  -- a refusal gives every new slot back
  have refused (f' : Fleet) (condition : String)
      (same : f' = ({ release allocs f with admission := admission } : Fleet).refund n) :
      s.Triple J thread (Gated s J cm allocs gate)
        (saveFleet cm { f' with condition := condition }) fun _ _ => True := by
    have admits : Admits o count f allocs gate [] { f' with condition := condition } := by
      have all := @admits_batch o count n f allocs gate admission reconciled [] (by simpa using positive)
        (fun some => absurd rfl some) (fun some => absurd rfl some) (fun some => absurd rfl some)
        (fun some => absurd rfl some) condition
      simpa [same, admitAll] using all
    exact (saveFleet_grant preserved call bound admits).pre_mono fun w gated => ⟨gated, batched_nil⟩
  refine .pre_mono ?_ fun w (holds : Gated s J cm allocs gate w ∧ _) => holds.1
  split
  · rename_i exhausted
    obtain ⟨_, rfl⟩ := exhausted
    exact .bind (refused _ "BudgetExhausted" (by rw [Int.sub_zero])) fun _ => .done fun _ _ => trivial
  split
  · exact .done fun _ _ => trivial
  rename_i retention
  refine .bind (of_workers (batch_triple preserved _ left)) fun reply => ?_
  cases reply with
  | error reason =>
    refine .bind ((refused _ reason ?_).pre_mono fun w holds => holds.1) fun _ => .done fun _ _ => trivial
    rw [refund_refund]
    congr 1
    ring
  | ok f' =>
    have save : s.Triple J thread
        (fun w => ∃ batch, f' = admitAll o batch
          { ({ release allocs f with admission := admission } : Fleet).refund (n - left) with
            condition := "DemandObserved" } ∧ batch.length = left.toNat ∧ Addressed o f allocs batch ∧
          Gated s J cm allocs gate w ∧ Batched s cm gate batch w) (saveFleet cm f') fun _ _ => True := by
      refine .exists_pre fun batch => ?_
      by_cases same : f' = admitAll o batch
          { ({ release allocs f with admission := admission } : Fleet).refund (n - left) with
            condition := "DemandObserved" } ∧ batch.length = left.toNat ∧ Addressed o f allocs batch
      swap
      · exact fun w holds => absurd ⟨holds.1, holds.2.1, holds.2.2.1⟩ same
      obtain ⟨rfl, length, addressed⟩ := same
      have size : (batch.length : Int) = left := by omega
      have some (nonempty : batch ≠ []) : 0 < left := by
        have := List.length_pos_iff.mpr nonempty
        omega
      have admits := @admits_batch o count n f allocs gate admission reconciled batch (by omega)
        (fun nonempty => size ▸ whole (some nonempty)) addressed (fun nonempty ceiling => ?_) (fun nonempty => ?_)
        "DemandObserved"
      · rw [size] at admits
        exact (saveFleet_grant preserved call bound admits).pre_mono fun w holds => holds.2.2.2
      · have exact := whole (some nonempty)
        rw [if_pos ceiling] at exact
        omega
      · have kept : ¬ (left > 0 ∧ (f.created.keys.length : Int) + left > 1000) := by
          simpa [Fleet.refund] using retention
        have := some nonempty
        omega
    refine .bind (save.pre_mono fun w holds => ?_) fun failed => ?_
    · obtain ⟨gated, all⟩ := holds
      obtain ⟨batch, same, length, addressed, batched⟩ := all f' rfl
      refine ⟨batch, same, length, addressed.congr ?_, gated, batched⟩
      exact release_pending.symm
    · cases failed <;> exact .done fun _ _ => trivial

/-- `HandleDesiredRunnerCount` keeps every invariant that the moves keep. -/
theorem handleDesiredRunnerCount_triple (preserved : Preserved s J)
    (call : s.calls thread = .desiredRunnerCount o count) :
    s.Triple J thread (fun _ => True) (o.handleDesiredRunnerCount count) fun _ _ => True := by
  have own : o.config.name = s.name := by
    have := s.named thread
    rwa [call] at this
  unfold Operator.handleDesiredRunnerCount
  refine .bind (of_workers (loadFleet_held preserved own (Rely.stable_pure True))) fun reply => ?_
  cases reply with
  | error e => exact .done fun _ _ => trivial
  | ok pair =>
    obtain ⟨cm, f⟩ := pair
    dsimp only
    refine .given (fun w ⟨_, _, read⟩ => (read cm f rfl).2) fun bound => ?_
    have list : s.Triple J thread (Held s cm) o.store.list fun reply w =>
        ∀ allocs, reply = .ok allocs → s.Invariant J w ∧ Counted s J cm allocs w := by
      refine of_workers (list_triple workers_respects own (held_stable cm) (fun e w _ _ allocs same => by cases same) ?_)
      intro allocs w kept held lists other same
      cases same
      exact ⟨kept, held, w, kept, lists, held.seen, .refl w, .refl _⟩
    refine .bind (list.pre_mono fun w ⟨kept, _, read⟩ => .of_lookup kept (read cm f rfl).1) fun reply => ?_
    cases reply with
    | error e => exact .done fun _ _ => trivial
    | ok allocs => exact (desire_triple preserved call bound).pre_mono fun w counted => counted allocs rfl

end Call

end RunnerScout.Capacity
