import RunnerScout.Capacity.Runs

/-! # Admission slots

Two bounds on the count of admitted slots.  From above: while timed-out records are
removed only after their slot was given back, every slot still counted belongs to an
allocation through which it can be given back.  From below: as long as nothing is
pruned the count is exact, so that it bounds the allocations alive, and no call
admits past its demand or the runner limit.
-/

namespace RunnerScout.Capacity

open Interaction Lifecycle Operator State

/-! ## Counting in the cluster -/

/-- The allocations that still hold their slot and can give it back. -/
def releasable (name : String) (maps : Maps) : Finset String :=
  ((maps.fleet name).pending.keys ++ maps.keys).toFinset.filter fun id =>
    (maps.fleet name).isReleased id = false ∧ (id ∈ (maps.fleet name).pending ∨ (maps.record id).isSome)

def isLive (name : String) (maps : Maps) (id : String) : Bool :=
  match maps.record id with
  | none => (maps.fleet name).pending.keys.contains id
  | some r => !r.phase.terminal

/-- Pending admissions without a record, and records that are not terminal. -/
def live (name : String) (maps : Maps) : Finset String :=
  ((maps.fleet name).pending.keys ++ maps.keys).toFinset.filter fun id => isLive name maps id

def Live (b : Books) (id : String) : Prop :=
  (id ∈ b.fleet.pending ∧ b.record id = none) ∨ ∃ r, b.record id = some r ∧ r.phase.terminal = false

section Counting

variable {s : Setting} {w : Cluster} {id : String}

theorem mem_keys_of_record (present : (s.books w).record id ≠ none) : id ∈ w.maps.keys := by
  refine AList.mem_keys.mp (AList.lookup_isSome.mp (Option.isSome_iff_ne_none.mpr fun absent => present ?_))
  simp only [Setting.books, World.record, Maps.record, absent, Option.bind_none]

theorem mem_releasable : id ∈ releasable s.name w.maps ↔ (s.books w).fleet.isReleased id = false ∧
    (id ∈ (s.books w).fleet.pending ∨ (s.books w).record id ≠ none) := by
  simp only [releasable, Finset.mem_filter, List.mem_toFinset, List.mem_append, Option.isSome_iff_ne_none]
  refine ⟨fun ⟨_, facts⟩ => facts, fun facts => ⟨?_, facts⟩⟩
  exact facts.2.imp AList.mem_keys.mp mem_keys_of_record

theorem mem_live : id ∈ live s.name w.maps ↔ Live (s.books w) id := by
  have record : (s.books w).record id = w.maps.record id := rfl
  rw [live, Finset.mem_filter, List.mem_toFinset, List.mem_append, isLive, Live, record]
  cases found : w.maps.record id with
  | none =>
    simp only [and_true, reduceCtorEq, false_and, exists_false, or_false, List.contains_iff_mem]
    exact ⟨fun ⟨_, waiting⟩ => AList.mem_keys.mpr waiting,
      fun waiting => ⟨.inl (AList.mem_keys.mp waiting), AList.mem_keys.mp waiting⟩⟩
  | some r =>
    simp only [reduceCtorEq, and_false, Option.some.injEq, exists_eq_left', false_or, Bool.not_eq_true']
    refine ⟨fun ⟨_, facts⟩ => facts, fun facts => ⟨.inr (@mem_keys_of_record s w id ?_), facts⟩⟩
    rw [record, found]
    exact Option.some_ne_none _

end Counting

/-! ## The count of admitted slots -/

theorem outstanding_congr {f f' : Fleet} (created : f'.created = f.created) (released : f'.released = f.released) :
    outstanding f' = outstanding f := by
  ext id
  rw [mem_outstanding, mem_outstanding, Fleet.isReleased, Fleet.isReleased, created, released]

section Admitted

variable {s : Setting} {thread : Nat} {b : Books} {o : Operator} {count : Int} {f after : Fleet}
  {allocs : List Allocation} {gate : Time} {batch : List Slot}

/-- Released allocations were admitted. -/
def ReleasedCreated (f : Fleet) : Prop := ∀ id, f.isReleased id = true → id ∈ f.created

/-- A batch adds its own slots to those left after the release. -/
theorem outstanding_grant (releasedCreated : ReleasedCreated b.fleet) (sound : Sound s b)
    (bound : b.fleet.bind o.config = .ok f) (tallied : Tallied b allocs) (timely : Timely s b gate batch)
    (admits : Admits o count f allocs gate batch after) :
    ReleasedCreated after ∧ (outstanding after).card = (outstanding (release allocs f)).card + batch.length := by
  have frame := bind_frame bound
  have created : f.created = b.fleet.created := by rw [frame]
  have listed (a : Allocation) (member : a ∈ allocs) : a.id ∈ b.fleet.created := by
    obtain ⟨r, found, _⟩ := tallied.known a member
    exact sound.recordCreated a.id (by rw [found]; exact Option.some_ne_none _)
  have released (id : String) (known : (release allocs f).isReleased id = true) : id ∈ b.fleet.created := by
    obtain before | ⟨a, member, rfl, _⟩ := release_isReleased.mp known
    · rw [frame] at before
      exact releasedCreated id before
    · exact listed a member
  have same (id : String) : after.isReleased id = (release allocs f).isReleased id := by
    simp only [Fleet.isReleased, admits.released]
  have inCreated (id : String) : id ∈ after.created ↔ id ∈ batch.map Slot.id ∨ id ∈ b.fleet.created := by
    rw [admits.created, GoMap.mem_insertAll, stamps_keys, created]
  have fresh (id : String) (member : id ∈ batch.map Slot.id) : id ∉ b.fleet.created := by
    obtain ⟨slot, inside, rfl⟩ := List.mem_map.mp member
    exact timely.unused slot inside
  refine ⟨fun id known => (inCreated id).mpr (.inr (released id (same id ▸ known))), ?_⟩
  have union : outstanding after = (batch.map Slot.id).toFinset ∪ outstanding (release allocs f) := by
    ext id
    rw [Finset.mem_union, mem_outstanding, mem_outstanding, inCreated, same, release_created, created, List.mem_toFinset]
    constructor
    · rintro ⟨new | old, unreleased⟩
      · exact .inl new
      · exact .inr ⟨old, unreleased⟩
    · rintro (new | ⟨old, unreleased⟩)
      · refine ⟨.inl new, ?_⟩
        rw [← Bool.not_eq_true]
        exact fun known => fresh id new (released id known)
      · exact ⟨.inr old, unreleased⟩
  have disjoint : Disjoint (batch.map Slot.id).toFinset (outstanding (release allocs f)) := by
    rw [Finset.disjoint_left]
    intro id new old
    rw [mem_outstanding, release_created, created] at old
    exact fresh id (List.mem_toFinset.mp new) old.1
  rw [union, Finset.card_union_of_disjoint disjoint, List.toFinset_card_of_nodup timely.nodup, List.length_map]
  omega

/-- The release counted on the fleet as it was read. -/
theorem release_counted (sound : Sound s b) (bound : b.fleet.bind o.config = .ok f) (tallied : Tallied b allocs) :
    (b.fleet.admission.admitted ≤ (outstanding b.fleet).card →
      (release allocs f).admission.admitted ≤ (outstanding (release allocs f)).card) ∧
    (b.fleet.admission.admitted = (outstanding b.fleet).card →
      (release allocs f).admission.admitted = (outstanding (release allocs f)).card) := by
  have frame := bind_frame bound
  have counted := @release_admitted f allocs fun a member _ => by
    obtain ⟨r, found, _⟩ := tallied.known a member
    rw [frame]
    exact sound.recordCreated a.id (by rw [found]; exact Option.some_ne_none _)
  have same : outstanding f = outstanding b.fleet := by
    rw [frame]
    exact outstanding_congr rfl rfl
  have admitted : f.admission = b.fleet.admission := by rw [frame]
  rw [same, admitted] at counted
  exact counted

end Admitted

/-! ## No slot is lost -/

/-- Every slot counted as admitted belongs to an allocation that can still give it back. -/
structure Covered (b : Books) : Prop where
  releasedCreated : ReleasedCreated b.fleet
  admitted : b.fleet.admission.admitted ≤ (outstanding b.fleet).card
  found : ∀ id ∈ b.fleet.created, b.fleet.isReleased id = false → id ∈ b.fleet.pending ∨ b.record id ≠ none

/-- Timed-out records are removed only after their slot was given back. -/
def RemovesReleased (s : Setting) : Prop :=
  ∀ b id r, s.removable b id → b.record id = some r → r.phase = .timedOut → b.fleet.isReleased id = true

section Covered

variable {s : Setting} {thread : Nat} {b after : Books}

theorem Covered.move (removes : RemovesReleased s) (sound : Sound s b) (covered : Covered b)
    (move : Move s thread b after) : Covered after := by
  cases move with
  | idle => exact covered
  | clock t shown => exact ⟨covered.releasedCreated, covered.admitted, covered.found⟩
  | draw id unused notFleet => exact ⟨covered.releasedCreated, covered.admitted, covered.found⟩
  | materialise id a waiting absent fresh entry =>
    refine ⟨covered.releasedCreated, covered.admitted, fun other member unreleased => ?_⟩
    by_cases same : other = id
    · subst same
      exact .inl waiting
    · simpa [Function.update_of_ne same] using covered.found other member unreleased
  | advance id r later found advances dated =>
    refine ⟨covered.releasedCreated, covered.admitted, fun other member unreleased => ?_⟩
    by_cases same : other = id
    · subst same
      exact .inr (by simp)
    · simpa [Function.update_of_ne same] using covered.found other member unreleased
  | migrate f pending bound kept dropped =>
    rw [bind_frame bound]
    refine ⟨covered.releasedCreated, covered.admitted, fun other member unreleased => ?_⟩
    obtain waiting | present := covered.found other member unreleased
    · by_cases still : other ∈ pending
      · exact .inl still
      · exact .inr (dropped other waiting still)
    · exact .inr present
  | grant o count f f' allocs gate batch call bound tallied timely admits =>
    obtain ⟨releasedCreated, card⟩ := outstanding_grant covered.releasedCreated sound bound tallied timely admits
    obtain ⟨base, start, admitted, _⟩ := admits.admitted
    have counted := (release_counted sound bound tallied).1 covered.admitted
    refine ⟨releasedCreated, ?_, fun id member unreleased => ?_⟩
    · dsimp only
      rw [admitted, card]
      obtain rfl | ⟨rfl, _⟩ := start <;> omega
    · dsimp only at member unreleased ⊢
      rw [admits.created, GoMap.mem_insertAll, stamps_keys, bind_frame bound] at member
      rw [admits.pending, GoMap.mem_insertAll, admissions_keys, bind_frame bound]
      obtain new | old := member
      · exact .inl (.inl new)
      · have before : b.fleet.isReleased id = false := by
          rw [← Bool.not_eq_true]
          intro released
          have still : f'.isReleased id = true := by
            rw [Fleet.isReleased, admits.released]
            exact release_isReleased.mpr (.inl (by rw [bind_frame bound]; exact released))
          rw [still] at unreleased
          cases unreleased
        exact (covered.found id old before).imp_left .inr
  | retry f used reruns bound =>
    rw [bind_frame bound]
    exact ⟨covered.releasedCreated, covered.admitted, covered.found⟩
  | prune f ids serial bound due =>
    rw [bind_frame bound]
    exact ⟨covered.releasedCreated, covered.admitted, covered.found⟩
  | remove id r serial found prunable marked removable =>
    have released : b.fleet.isReleased id = true := by
      obtain timedOut | released := prunable.released
      · exact removes b id r removable found timedOut
      · exact released
    refine ⟨covered.releasedCreated, covered.admitted, fun other member unreleased => ?_⟩
    by_cases same : other = id
    · subst same
      have unreleased : b.fleet.isReleased other = false := unreleased
      rw [released] at unreleased
      cases unreleased
    · simpa [Function.update_of_ne same] using covered.found other member unreleased

end Covered

/-- Admission slots are never leaked, in runs in which a timed-out record is removed only
    after `HandleDesiredRunnerCount` gave its slot back. -/
theorem slots_never_leaked {s : Setting} (removes : RemovesReleased s) {system : System Api Cluster Outcome}
    (run : s.Run system) :
    (system.world.fleet s.name).admission.admitted ≤ (releasable s.name system.world.maps).card := by
  have safe := run_safe (preserved_of_moves fun thread b after sound covered move => Covered.move removes sound covered move)
    (fun w initial => by
      obtain ⟨fleet, _⟩ := initial.books
      refine ⟨?_, ?_, ?_⟩ <;> rw [fleet]
      · exact fun id released => Bool.noConfusion released
      · exact Int.le_refl _
      · exact fun id member => absurd member (AList.notMem_empty id)) run
  have covered := safe.invariant.extra
  refine covered.admitted.trans (Int.ofNat_le.mpr (Finset.card_le_card fun id member => ?_))
  obtain ⟨created, unreleased⟩ := mem_outstanding.mp member
  exact mem_releasable.mpr ⟨unreleased, covered.found id created unreleased⟩

/-! ### A small scale set -/

def smallConfig : Config where
  name := "ci"
  provisioningSeconds := 60
  maxLifetimeSeconds := 3600
  budgetDailyMicros := 3600
  requirements := {
    cpu := 1, memoryMiB := 1, architecture := "amd64", providers := ["aws"], regions := ["eu-west-1"]
    maxPriceMicros := 3600, policy := "lowest-price" }
  catalog := {
    offerings := [{
      id := "pool", provider := "aws", region := "eu-west-1", zone := "eu-west-1a", machine := "m6i.large"
      image := "ami", cpu := 1, memoryMiB := 1, architecture := "amd64", spot := true, priceMicros := 1
      currency := "USD", observedAt := second }]
    complete := AList.singleton "aws" true }
  providers := AList.singleton "aws" {
    kind := "aws", subnet := "subnet", owner := "ci", securityGroup := "sg", accountID := "123456789012" }

def smallOperator : Operator := { config := smallConfig }

/-- One runner is wanted, and a cycle runs now and then. -/
def smallCalls : Nat → Call
  | 0 => .desiredRunnerCount smallOperator 1
  | _ => .tick smallOperator

theorem smallCalls_named (thread : Nat) : (smallCalls thread).operator.config.name = "ci" := by
  unfold smallCalls
  split <;> rfl

/-- The first cycle finds the allocation past its deadline, the second past its retention. -/
def lateTimes (thread : Nat) (t : Time) : Time :=
  max t (if thread = 0 then 2 * second else if thread = 1 then 100 * second else 100 * second + terminalRetention)

theorem lateTimes_forward (thread : Nat) (t : Time) : t ≤ lateTimes thread t := le_max_left _ _

def leakySetting : Setting := Setting.alone "ci" smallCalls smallCalls_named

/-- An allocation times out, and its record is pruned before any further demand is
    handled: its slot stays counted for good. -/
def leakyRun : System Api Cluster Outcome :=
  leakySetting.played (Setting.plain _ lateTimes lateTimes_forward true fun _ _ _ => trivial)
    [(0, 100), (1, 100), (2, 100)]

theorem slot_leaked : leakySetting.Run leakyRun ∧
    ¬ (leakyRun.world.fleet leakySetting.name).admission.admitted ≤
      (releasable leakySetting.name leakyRun.world.maps).card :=
  ⟨Setting.played_run _ _ _, by decide +kernel⟩

/-- The same calls where timed-out records wait for their release. -/
def carefulSetting : Setting :=
  Setting.alone "ci" smallCalls smallCalls_named fun b id =>
    ∀ r, b.record id = some r → r.phase = .timedOut → b.fleet.isReleased id = true

def carefulScript (thread : Nat) : Script carefulSetting.rules thread :=
  { Setting.plain _ lateTimes lateTimes_forward false (fun removes => Bool.noConfusion removes) thread with
    removes := fun w id => (carefulSetting.books w).fleet.isReleased id
    removable := fun _ _ released _ _ _ => released }

/-- Between the two cycles demand is handled once more, which releases the allocation. -/
def carefulRun : System Api Cluster Outcome :=
  carefulSetting.played carefulScript [(0, 100), (1, 100), (0, 100), (2, 100)]

/-- The record is removed, and the slot that is counted is that of another allocation. -/
theorem slots_never_leaked_carefulRun :
    RemovesReleased carefulSetting ∧ carefulSetting.Run carefulRun ∧
      ((carefulRun.world.fleet carefulSetting.name).isReleased "rs-aaaaaaaaa" &&
        (carefulRun.world.record "rs-aaaaaaaaa").isNone) = true ∧
      (carefulRun.world.fleet carefulSetting.name).admission.admitted ≤
        (releasable carefulSetting.name carefulRun.world.maps).card :=
  have removes : RemovesReleased carefulSetting := fun _ _ r removable found timedOut => removable r found timedOut
  have run : carefulSetting.Run carefulRun := Setting.played_run _ _ _
  ⟨removes, run, by decide +kernel, slots_never_leaked removes run⟩

/-! ## The count is exact while nothing is pruned -/

/-- Every slot is counted until its allocation is released, and only terminal
    allocations are released. -/
structure Exact (b : Books) : Prop where
  releasedCreated : ReleasedCreated b.fleet
  admitted : b.fleet.admission.admitted = (outstanding b.fleet).card
  settled : ∀ id, b.fleet.isReleased id = true → ∃ r, b.record id = some r ∧ r.phase.terminal = true
  unpruned : ∀ id, b.fleet.isPruned id = false

section Exact

variable {s : Setting} {thread : Nat} {b after : Books} {o : Operator} {count : Int} {f f' : Fleet}
  {allocs : List Allocation} {gate : Time} {batch : List Slot}

/-- What is alive still has its slot. -/
theorem Exact.outstanding_of_live (exact : Exact b) (sound : Sound s b) {id : String} (alive : Live b id) :
    id ∈ outstanding b.fleet := by
  refine mem_outstanding.mpr ⟨?_, ?_⟩
  · obtain ⟨waiting, _⟩ | ⟨r, found, _⟩ := alive
    · exact sound.pendingCreated id waiting
    · exact sound.recordCreated id (by rw [found]; exact Option.some_ne_none _)
  · rw [← Bool.not_eq_true]
    intro released
    obtain ⟨r, found, terminal⟩ := exact.settled id released
    obtain ⟨_, absent⟩ | ⟨r', known, live⟩ := alive
    · rw [absent] at found
      cases found
    · rw [found] at known
      cases known
      rw [terminal] at live
      cases live

/-- With nothing active, the release gives every slot back. -/
theorem Exact.outstanding_release (exact : Exact b) (sound : Sound s b) (bound : b.fleet.bind o.config = .ok f)
    (tallied : Tallied b allocs) (idle : activeCount allocs (release allocs f) = 0) :
    outstanding (release allocs f) = ∅ := by
  have frame := bind_frame bound
  obtain ⟨terminal, listed⟩ := activeCount_zero idle
  rw [release_pending, frame] at listed
  rw [Finset.eq_empty_iff_forall_notMem]
  intro id member
  obtain ⟨created, unreleased⟩ := mem_outstanding.mp member
  rw [release_created, frame] at created
  have known : id ∈ allocs.map Allocation.id := by
    obtain waiting | present | marked := sound.accounted id created
    · exact listed id waiting
    · exact (tallied.others id present).elim (fun inside => inside) (listed id)
    · rw [exact.unpruned id] at marked
      cases marked
  obtain ⟨a, inside, rfl⟩ := List.mem_map.mp known
  rw [release_isReleased.mpr (.inr ⟨a, inside, rfl, terminal a inside⟩)] at unreleased
  cases unreleased

theorem Exact.grant (exact : Exact b) (sound : Sound s b) (bound : b.fleet.bind o.config = .ok f)
    (tallied : Tallied b allocs) (timely : Timely s b gate batch) (admits : Admits o count f allocs gate batch f') :
    Exact { b with fleet := f' } := by
  have frame := bind_frame bound
  obtain ⟨releasedCreated, card⟩ := outstanding_grant exact.releasedCreated sound bound tallied timely admits
  obtain ⟨base, start, admitted, _⟩ := admits.admitted
  have counted := (release_counted sound bound tallied).2 exact.admitted
  refine ⟨releasedCreated, ?_, fun id released => ?_, fun id => ?_⟩
  · have same : base = (outstanding (release allocs f)).card := by
      obtain rfl | ⟨rfl, idle⟩ := start
      · exact counted
      · rw [exact.outstanding_release sound bound tallied idle.1]
        rfl
    rw [admitted, card, same]
    exact Int.natCast_add _ _
  · have released : (release allocs f).isReleased id = true := by
      rw [← released]
      simp only [Fleet.isReleased, admits.released]
    obtain earlier | ⟨a, inside, rfl, terminal⟩ := release_isReleased.mp released
    · rw [frame] at earlier
      exact exact.settled id earlier
    · obtain ⟨r, found, advances⟩ := tallied.known a inside
      exact ⟨r, found, by rw [(advances.final terminal).1]; exact terminal⟩
  · rw [← exact.unpruned id]
    simp only [Fleet.isPruned, admits.pruned, frame]

theorem Exact.move (overlaps : ¬ s.Serial) (sound : Sound s b) (exact : Exact b) (move : Move s thread b after) :
    Exact after := by
  cases move with
  | idle => exact exact
  | clock t shown => exact ⟨exact.releasedCreated, exact.admitted, exact.settled, exact.unpruned⟩
  | draw id unused notFleet => exact ⟨exact.releasedCreated, exact.admitted, exact.settled, exact.unpruned⟩
  | materialise id a waiting absent fresh entry =>
    refine ⟨exact.releasedCreated, exact.admitted, fun other released => ?_, exact.unpruned⟩
    obtain ⟨r, found, terminal⟩ := exact.settled other released
    have different : other ≠ id := by
      rintro rfl
      rw [absent] at found
      cases found
    exact ⟨r, by simpa [Function.update_of_ne different] using found, terminal⟩
  | advance id r later found advances dated =>
    refine ⟨exact.releasedCreated, exact.admitted, fun other released => ?_, exact.unpruned⟩
    obtain ⟨r', known, terminal⟩ := exact.settled other released
    by_cases same : other = id
    · subst same
      rw [found] at known
      cases known
      exact ⟨later, Function.update_self .., by rw [(advances.final terminal).1]; exact terminal⟩
    · exact ⟨r', by simpa [Function.update_of_ne same] using known, terminal⟩
  | migrate f pending bound kept dropped =>
    rw [bind_frame bound]
    exact ⟨exact.releasedCreated, exact.admitted, exact.settled, exact.unpruned⟩
  | grant o count f f' allocs gate batch call bound tallied timely admits =>
    exact exact.grant sound bound tallied timely admits
  | retry f used reruns bound =>
    rw [bind_frame bound]
    exact ⟨exact.releasedCreated, exact.admitted, exact.settled, exact.unpruned⟩
  | prune f ids serial bound due => exact absurd serial overlaps
  | remove id r serial found prunable marked removable => exact absurd serial overlaps

/-- Only an admission brings anything to life. -/
theorem Move.live (overlaps : ¬ s.Serial) (move : Move s thread b after) :
    (∀ id, Live after id → Live b id) ∨
      ∃ o count, s.calls thread = .desiredRunnerCount o count ∧
        after.fleet.admission.admitted ≤ min count o.config.maxRunners := by
  cases move with
  | idle => exact .inl fun _ alive => alive
  | clock t shown => exact .inl fun _ alive => alive
  | draw id unused notFleet => exact .inl fun _ alive => alive
  | materialise id a waiting absent fresh entry =>
    refine .inl fun other alive => ?_
    by_cases same : other = id
    · subst same
      exact .inl ⟨waiting, absent⟩
    · simpa only [Live, Function.update_of_ne same] using alive
  | advance id r later found advances dated =>
    refine .inl fun other alive => ?_
    by_cases same : other = id
    · subst same
      obtain ⟨_, absent⟩ | ⟨r', known, live⟩ := alive
      · simp at absent
      · simp only [Function.update_self, Option.some.injEq] at known
        subst known
        refine .inr ⟨r, found, ?_⟩
        rw [← Bool.not_eq_true]
        intro terminal
        rw [(advances.final terminal).1, terminal] at live
        cases live
    · simpa only [Live, Function.update_of_ne same] using alive
  | migrate f pending bound kept dropped =>
    refine .inl fun other alive => alive.imp_left fun ⟨waiting, absent⟩ => ⟨?_, absent⟩
    obtain ⟨a, found⟩ := GoMap.mem_iff.mp waiting
    exact GoMap.mem_iff.mpr ⟨a, kept other a found⟩
  | grant o count f f' allocs gate batch call bound tallied timely admits =>
    obtain ⟨base, _, admitted, within⟩ := admits.admitted
    by_cases none : batch = []
    · subst none
      refine .inl fun other alive => alive.imp_left fun ⟨waiting, absent⟩ => ⟨?_, absent⟩
      rw [admits.pending, bind_frame bound] at waiting
      exact waiting
    · refine .inr ⟨o, count, call, ?_⟩
      rw [admitted]
      exact within none
  | retry f used reruns bound =>
    rw [bind_frame bound]
    exact .inl fun _ alive => alive
  | prune f ids serial bound due => exact absurd serial overlaps
  | remove id r serial found prunable marked removable => exact absurd serial overlaps

end Exact

theorem card_live_le {s : Setting} {w : Cluster} (exact : Exact (s.books w)) (sound : Sound s (s.books w)) :
    ((live s.name w.maps).card : Int) ≤ (s.books w).fleet.admission.admitted := by
  rw [exact.admitted]
  exact Int.ofNat_le.mpr (Finset.card_le_card fun _ member => exact.outstanding_of_live sound (mem_live.mp member))

/-- No write of a call leaves more alive than before it and than the demand and the
    runner limit of the call allow. -/
def Bounded (s : Setting) (e : Entry) : Prop :=
  ∀ o count, s.calls e.thread = .desiredRunnerCount o count →
    ((live s.name e.after).card : Int) ≤ max ((live s.name e.before).card : Int) (min count o.config.maxRunners)

theorem preserved_bounded {s : Setting} (overlaps : ¬ s.Serial) :
    Preserved s fun w => Exact (s.books w) ∧ ∀ e ∈ w.history, Bounded s e := by
  rintro thread w after wellFormed sound ⟨exact, bounded⟩ act
  have still := exact.move overlaps sound act.move
  refine ⟨still, fun e member => ?_⟩
  obtain ⟨_, same⟩ | logged := act.logged
  · exact bounded e (same ▸ member)
  rw [logged] at member
  obtain rfl | earlier := List.mem_cons.mp member
  · intro o count call
    obtain fewer | ⟨o', count', call', within⟩ := act.move.live overlaps
    · refine le_max_of_le_left (Int.ofNat_le.mpr (Finset.card_le_card fun id alive => ?_))
      exact (@mem_live s w id).mpr (fewer id ((@mem_live s after id).mp alive))
    · rw [call] at call'
      cases call'
      exact le_max_of_le_right ((card_live_le still (act.move.sound sound)).trans within)
  · exact bounded e earlier

/-- Where calls overlap, and so nothing is pruned, the admitted slots cover everything
    alive, and no call admits past its demand and its runner limit. -/
theorem admission_bounded {s : Setting} (overlaps : ¬ s.Serial) {system : System Api Cluster Outcome}
    (run : s.Run system) :
    ((live s.name system.world.maps).card : Int) ≤ (system.world.fleet s.name).admission.admitted ∧
      ∀ e ∈ system.world.history, ∀ o count, s.calls e.thread = .desiredRunnerCount o count →
        ((live s.name e.after).card : Int) ≤
          max ((live s.name e.before).card : Int) (min count o.config.maxRunners) := by
  have safe := run_safe (preserved_bounded overlaps) (fun w initial => by
    obtain ⟨fleet, _⟩ := initial.books
    refine ⟨⟨?_, ?_, ?_, ?_⟩, ?_⟩
    · exact fun id released => by rw [fleet] at released; cases released
    · rw [fleet]
      rfl
    · exact fun id released => by rw [fleet] at released; cases released
    · exact fun id => by rw [fleet]; rfl
    · rw [initial.history]
      exact fun e member => absurd member List.not_mem_nil) run
  obtain ⟨exact, bounded⟩ := safe.invariant.extra
  exact ⟨card_live_le exact safe.invariant.sound, bounded⟩

/-- Two processes handle a demand of one runner each. -/
def crowdedSetting : Setting :=
  Setting.shared "ci" (fun thread => if thread < 2 then .desiredRunnerCount smallOperator 1 else .tick smallOperator)
    (fun thread => by split <;> rfl) second

def crowdedScript : (thread : Nat) → Script crowdedSetting.rules thread :=
  Setting.plain _ (fun _ _ => 2 * second) (fun _ _ => ⟨by decide, by decide⟩) false fun removes => Bool.noConfusion removes

/-- The first call as far as it gets before the other one. -/
def firstTurn : Program Api Outcome × Cluster :=
  System.playFor (crowdedScript 0).answer 3 (crowdedSetting.calls 0).program { history := [] }

def secondTurn : Program Api Outcome × Cluster :=
  System.playFor (crowdedScript 1).answer 100 (crowdedSetting.calls 1).program firstTurn.2

/-- The first call goes on after the other one, with what it read before. -/
def lastTurn : Program Api Outcome × Cluster :=
  System.playFor (crowdedScript 0).answer 100 firstTurn.1 secondTurn.2

def crowdedRun : System Api Cluster Outcome :=
  ⟨lastTurn.2, Function.update (Function.update (fun _ => none) 1 (some secondTurn.1)) 0 (some lastTurn.1)⟩

theorem crowdedRun_run : crowdedSetting.Run crowdedRun := by
  have begun : crowdedSetting.Run ⟨firstTurn.2, Function.update (fun _ => none) 0 (some firstTurn.1)⟩ :=
    (System.Reachable.step (.initial _ ⟨rfl, rfl, rfl⟩)
      (.start 0 _ rfl (fun _ running => absurd rfl running) rfl)).playFor (crowdedScript 0).honest 3
  have alone (other : Nat) (running : Function.update (fun _ => none) 0 (some firstTurn.1) other ≠ none) : other = 0 := by
    by_contra idle
    exact running (Function.update_of_ne idle ..)
  have joined : crowdedSetting.Run ⟨secondTurn.2,
      Function.update (Function.update (fun _ => none) 0 (some firstTurn.1)) 1 (some secondTurn.1)⟩ :=
    (begun.step (.start 1 _ rfl (fun other running => alone other running ▸ ⟨Nat.zero_ne_one, Nat.one_ne_zero⟩) rfl)).playFor
      (crowdedScript 1).honest 100
  rw [Function.update_comm Nat.zero_ne_one] at joined
  exact joined.playFor (crowdedScript 0).honest 100

theorem admission_bounded_crowdedRun :
    ¬ crowdedSetting.Serial ∧ crowdedSetting.Run crowdedRun ∧
      ((live crowdedSetting.name crowdedRun.world.maps).card : Int) ≤
        (crowdedRun.world.fleet crowdedSetting.name).admission.admitted :=
  have overlaps : ¬ crowdedSetting.Serial := fun serial => serial 0 1 Nat.one_ne_zero
  ⟨overlaps, crowdedRun_run, (admission_bounded overlaps crowdedRun_run).1⟩

end RunnerScout.Capacity
