import Mathlib.Data.Finset.Card
import Mathlib.Tactic.Ring
import RunnerScout.Operator.Admission

/-! # What one admission leaves behind

The pure part of `HandleDesiredRunnerCount`: the slots that the release of terminal
allocations gives back, the new slots of a batch, and the whole effect of a call on
the fleet it has read (`Admits`).
-/

namespace RunnerScout.Capacity

open Lifecycle Placement Operator

/-! ## Slots -/

/-- The allocations whose slot has not been given back. -/
def outstanding (f : Fleet) : Finset String := f.created.keys.toFinset.filter fun id => f.isReleased id = false

theorem mem_outstanding {f : Fleet} {id : String} :
    id ∈ outstanding f ↔ id ∈ f.created ∧ f.isReleased id = false := by
  simp [outstanding, AList.mem_keys]

theorem refund_refund (f : Fleet) (first second : Int) :
    (f.refund first).refund second = f.refund (first + second) := by
  simp only [Fleet.refund, Int.sub_sub]

section Release

variable {a : Allocation} {f : Fleet} {allocs : List Allocation}

theorem releaseTerminal_frame :
    ∃ admission released, releaseTerminal f a = { f with admission := admission, released := released } := by
  unfold releaseTerminal
  split
  · exact ⟨_, _, rfl⟩
  · exact ⟨f.admission, f.released, rfl⟩

/-- Releasing touches the admission count and the list of released allocations only. -/
theorem release_frame :
    ∃ admission released, release allocs f = { f with admission := admission, released := released } := by
  induction allocs generalizing f with
  | nil => exact ⟨f.admission, f.released, rfl⟩
  | cons a rest ih =>
    obtain ⟨admission, released, one⟩ := @releaseTerminal_frame a f
    obtain ⟨last, all, more⟩ := @ih (releaseTerminal f a)
    refine ⟨last, all, ?_⟩
    rw [one] at more
    change release rest (releaseTerminal f a) = _
    rw [one, more]

@[simp] theorem release_created : (release allocs f).created = f.created := by
  obtain ⟨_, _, same⟩ := @release_frame f allocs
  rw [same]

@[simp] theorem release_reserved : (release allocs f).reserved = f.reserved := by
  obtain ⟨_, _, same⟩ := @release_frame f allocs
  rw [same]

@[simp] theorem release_pending : (release allocs f).pending = f.pending := by
  obtain ⟨_, _, same⟩ := @release_frame f allocs
  rw [same]

theorem releaseTerminal_resetObserved :
    (releaseTerminal f a).admission.resetObserved = f.admission.resetObserved := by
  unfold releaseTerminal
  split
  · dsimp only
    split <;> rfl
  · rfl

@[simp] theorem release_resetObserved : (release allocs f).admission.resetObserved = f.admission.resetObserved := by
  induction allocs generalizing f with
  | nil => rfl
  | cons a rest ih => exact (@ih (releaseTerminal f a)).trans releaseTerminal_resetObserved

theorem releaseTerminal_isReleased {id : String} :
    (releaseTerminal f a).isReleased id = true ↔ f.isReleased id = true ∨ (a.id = id ∧ a.phase.terminal = true) := by
  unfold releaseTerminal
  split
  · rename_i releases
    simp only [Bool.and_eq_true] at releases
    by_cases same : id = a.id
    · subst same
      simp [Fleet.isReleased, releases.1]
    · have different : ¬ a.id = id := fun h => same h.symm
      simp [Fleet.isReleased, AList.lookup_insert_ne same, different]
  · rename_i keeps
    refine ⟨.inl, ?_⟩
    rintro (already | ⟨rfl, terminal⟩)
    · exact already
    · simpa [terminal] using keeps

theorem release_isReleased {id : String} :
    (release allocs f).isReleased id = true ↔
      f.isReleased id = true ∨ ∃ a ∈ allocs, a.id = id ∧ a.phase.terminal = true := by
  induction allocs generalizing f with
  | nil => simp [release]
  | cons a rest ih =>
    change (release rest (releaseTerminal f a)).isReleased id = true ↔ _
    rw [ih, releaseTerminal_isReleased]
    simp only [List.mem_cons, exists_eq_or_imp]
    tauto

theorem releaseTerminal_created : (releaseTerminal f a).created = f.created := by
  obtain ⟨_, _, same⟩ := @releaseTerminal_frame a f
  rw [same]

/-- One allocation gives back at most its own slot. -/
theorem releaseTerminal_outstanding :
    outstanding (releaseTerminal f a) = if a.phase.terminal then (outstanding f).erase a.id else outstanding f := by
  ext id
  have released := @releaseTerminal_isReleased a f id
  rw [mem_outstanding, releaseTerminal_created]
  split
  · rename_i terminal
    rw [Finset.mem_erase, mem_outstanding, ← Bool.not_eq_true, ← Bool.not_eq_true, released]
    simp only [terminal, and_true]
    constructor
    · rintro ⟨created, fresh⟩
      exact ⟨fun same => fresh (.inr same.symm), created, fun already => fresh (.inl already)⟩
    · rintro ⟨different, created, fresh⟩
      exact ⟨created, fun either => either.elim fresh fun same => different same.symm⟩
  · rename_i live
    rw [mem_outstanding, ← Bool.not_eq_true, ← Bool.not_eq_true, released]
    simp [live]

/-- The count of admissions follows the slots that are given back. -/
theorem releaseTerminal_admitted (created : a.phase.terminal = true → a.id ∈ f.created) :
    (f.admission.admitted ≤ (outstanding f).card →
      (releaseTerminal f a).admission.admitted ≤ (outstanding (releaseTerminal f a)).card) ∧
    (f.admission.admitted = (outstanding f).card →
      (releaseTerminal f a).admission.admitted = (outstanding (releaseTerminal f a)).card) := by
  rw [releaseTerminal_outstanding]
  unfold releaseTerminal
  cases terminal : a.phase.terminal
  · simp
  · cases released : f.isReleased a.id
    · have member : a.id ∈ outstanding f := mem_outstanding.mpr ⟨created terminal, released⟩
      have positive := Finset.card_pos.mpr ⟨_, member⟩
      simp only [Bool.not_false, Bool.and_self, if_true, Finset.card_erase_of_mem member]
      constructor
      · intro counted
        split
        · dsimp only
          omega
        · omega
      · intro counted
        split
        · dsimp only
          omega
        · omega
    · have absent : a.id ∉ outstanding f := fun member => by simp [mem_outstanding, released] at member
      simp [Finset.erase_eq_of_notMem absent]

theorem release_admitted (created : ∀ a ∈ allocs, a.phase.terminal = true → a.id ∈ f.created) :
    (f.admission.admitted ≤ (outstanding f).card →
      (release allocs f).admission.admitted ≤ (outstanding (release allocs f)).card) ∧
    (f.admission.admitted = (outstanding f).card →
      (release allocs f).admission.admitted = (outstanding (release allocs f)).card) := by
  induction allocs generalizing f with
  | nil => exact ⟨id, id⟩
  | cons a rest ih =>
    have one := @releaseTerminal_admitted a f (created a List.mem_cons_self)
    have more := @ih (releaseTerminal f a) fun b member terminal => by
      rw [releaseTerminal_created]
      exact created b (List.mem_cons_of_mem _ member) terminal
    exact ⟨fun counted => more.1 (one.1 counted), fun counted => more.2 (one.2 counted)⟩

/-- Nothing is active: every allocation listed is terminal, every pending one is listed. -/
theorem activeCount_zero (idle : activeCount allocs f = 0) :
    (∀ a ∈ allocs, a.phase.terminal = true) ∧ ∀ id ∈ f.pending, id ∈ allocs.map Allocation.id := by
  unfold activeCount at idle
  have listed : allocs.countP (fun a => !a.phase.terminal) = 0 := by omega
  have waiting : f.pending.keys.countP (fun id => !(allocs.map Allocation.id).contains id) = 0 := by omega
  rw [List.countP_eq_zero] at listed waiting
  refine ⟨fun a member => by simpa using listed a member, fun id member => ?_⟩
  simpa using waiting id (AList.mem_keys.mp member)

end Release

/-! ## New slots -/

/-- The new slots are bounded by the demand that is left; a clean cohort starts over. -/
theorem reconcile_spec {s after : AdmissionState} {demand active limit n : Int} {cleanupConfirmed : Bool}
    (reconciled : s.reconcile demand active limit cleanupConfirmed = .ok (n, after)) :
    0 ≤ n ∧ (after.resetObserved = true → s.resetObserved = true ∨ demand = 0) ∧
      ∃ base, (base = s.admitted ∨ (base = 0 ∧ active = 0 ∧ (s.resetObserved = true ∨ demand = 0))) ∧
        after.admitted = base + n ∧ (0 < n → base + n ≤ min demand limit) := by
  unfold AdmissionState.reconcile at reconciled
  split at reconciled
  · cases reconciled
  dsimp only at reconciled
  generalize observed : (if demand = 0 then { s with resetObserved := true } else s) = first at reconciled
  have same : first.admitted = s.admitted := by
    subst observed
    split <;> rfl
  have reset (known : first.resetObserved = true) : s.resetObserved = true ∨ demand = 0 := by
    subst observed
    split at known
    · exact .inr ‹_›
    · exact .inl known
  split at reconciled
  · rename_i resets
    cases reconciled
    refine ⟨by omega, (fun known => by cases known), 0, .inr ⟨rfl, resets.2.2, reset resets.1⟩, rfl, ?_⟩
    dsimp only
    omega
  · cases reconciled
    exact ⟨by omega, reset, s.admitted, .inl rfl, by simp only [same], by rw [same]; omega⟩

/-! ## A batch -/

/-- What one new allocation is stamped with. -/
structure Slot where
  id : String
  now : Time
  catalog : Catalog
  address : String

section Batch

variable (o : Operator)

def admitAll (batch : List Slot) (f : Fleet) : Fleet :=
  batch.foldl (fun f slot => o.grant f slot.id slot.now slot.catalog slot.address) f

/-- The reservation every allocation of a batch gets. -/
def unitMicros : Int := reservationMicros o.config.requirements.maxPriceMicros o.config.maxLifetimeSeconds

def stamps (batch : List Slot) : List (String × Time) := batch.map fun slot => (slot.id, slot.now)

def reservations (batch : List Slot) : List (String × Int) :=
  if o.config.budgetDailyMicros > 0 then batch.map fun slot => (slot.id, unitMicros o) else []

def admissions (batch : List Slot) : List (String × Allocation) :=
  batch.map fun slot => (slot.id, o.newAllocation slot.id slot.now slot.catalog slot.address)

theorem admitAll_eq (batch : List Slot) (f : Fleet) : admitAll o batch f =
    { f with
      created := GoMap.insertAll (stamps batch) f.created
      reserved := GoMap.insertAll (reservations o batch) f.reserved
      pending := GoMap.insertAll (admissions o batch) f.pending } := by
  induction batch generalizing f with
  | nil =>
    unfold reservations
    split <;> rfl
  | cons slot rest ih =>
    change admitAll o rest (o.grant f slot.id slot.now slot.catalog slot.address) = _
    rw [ih]
    by_cases budget : o.config.budgetDailyMicros > 0
    · simp only [Operator.grant, reservations, stamps, admissions, GoMap.insertAll, if_pos budget, List.map_cons,
        List.foldl_cons]
      rfl
    · simp only [Operator.grant, reservations, stamps, admissions, GoMap.insertAll, if_neg budget, List.map_cons,
        List.foldl_cons, List.foldl_nil]

@[simp] theorem stamps_keys (batch : List Slot) : (stamps batch).map Prod.fst = batch.map Slot.id := by
  simp [stamps, Function.comp_def]

@[simp] theorem admissions_keys (batch : List Slot) : (admissions o batch).map Prod.fst = batch.map Slot.id := by
  simp [admissions, Function.comp_def]

theorem affordable_eq (c : Config) (f : Fleet) (allocs : List Allocation) (now : Time) :
    affordable c f allocs now =
      if reservationMicros c.requirements.maxPriceMicros c.maxLifetimeSeconds > 0 ∧
          wrap64 (c.budgetDailyMicros - spentToday f allocs now) > 0 then
        wrap64 ((wrap64 (c.budgetDailyMicros - spentToday f allocs now)).tdiv
          (reservationMicros c.requirements.maxPriceMicros c.maxLifetimeSeconds))
      else 0 := rfl

/-- The gate reads the stamps and reservations of the fleet and nothing else of it. -/
theorem affordable_congr {c : Config} {f f' : Fleet} {allocs : List Allocation} {now : Time}
    (created : f'.created = f.created) (reserved : f'.reserved = f.reserved) :
    affordable c f' allocs now = affordable c f allocs now := by
  have same : counts f' allocs now = counts f allocs now := by
    funext id
    simp only [counts, created]
  have spent : spentToday f' allocs now = spentToday f allocs now := by
    simp only [spentToday, spentTodayIn, same, reserved]
  rw [affordable_eq, affordable_eq, spent]

theorem wrap64_range (n : Int) : Fits64 (wrap64 n) := by
  unfold Fits64 wrap64
  omega

theorem affordable_nonneg (c : Config) (f : Fleet) (allocs : List Allocation) (now : Time) :
    0 ≤ affordable c f allocs now := by
  rw [affordable_eq]
  split
  · rename_i positive
    obtain ⟨unit, remaining⟩ := positive
    have range := (wrap64_range (c.budgetDailyMicros - spentToday f allocs now)).2
    have low := Int.tdiv_nonneg (Int.le_of_lt remaining) (Int.le_of_lt unit)
    have high := Int.tdiv_le_self (reservationMicros c.requirements.maxPriceMicros c.maxLifetimeSeconds)
      (Int.le_of_lt remaining)
    rw [wrap64_of_fits ⟨by omega, by omega⟩]
    exact low
  · exact Int.le_refl 0

/-- The slots a call asks for: those of the demand, as far as the budget goes. -/
def granted (count : Int) (f : Fleet) (allocs : List Allocation) (gate : Time) : Option Int :=
  match (release allocs f).admission.reconcile count (activeCount allocs (release allocs f)) o.config.maxRunners
      (activeCount allocs (release allocs f) = 0) with
  | .error _ => none
  | .ok (n, _) => some (if o.config.budgetDailyMicros > 0 then min n (affordable o.config f allocs gate) else n)

/-- What `HandleDesiredRunnerCount` makes of the fleet it read: terminal allocations
    are released, the demand is reconciled from there or from a clean start, and a
    batch within demand, budget and retention is added, whole and with an overlay
    address each, or none at all. -/
structure Admits (count : Int) (f : Fleet) (allocs : List Allocation) (gate : Time) (batch : List Slot)
    (after : Fleet) : Prop where
  created : after.created = GoMap.insertAll (stamps batch) f.created
  reserved : after.reserved = GoMap.insertAll (reservations o batch) f.reserved
  pending : after.pending = GoMap.insertAll (admissions o batch) f.pending
  released : after.released = (release allocs f).released
  pruned : after.pruned = f.pruned
  binding : after.binding = f.binding
  observed : after.admission.resetObserved = true → f.admission.resetObserved = true ∨ count = 0
  admitted : ∃ base,
    (base = (release allocs f).admission.admitted ∨
      (base = 0 ∧ activeCount allocs (release allocs f) = 0 ∧ (f.admission.resetObserved = true ∨ count = 0))) ∧
    after.admission.admitted = base + batch.length ∧
    (batch ≠ [] → base + batch.length ≤ min count o.config.maxRunners)
  whole : batch ≠ [] → granted o count f allocs gate = some (batch.length : Int)
  addressed : batch ≠ [] → o.config.networkProfile ≠ "" →
    o.overlayAddresses batch.length (o.overlayTaken allocs f) = .ok (batch.map Slot.address)
  budget : batch ≠ [] → o.config.budgetDailyMicros > 0 → batch.length ≤ affordable o.config f allocs gate
  retention : batch ≠ [] → f.created.keys.length + batch.length ≤ 1000

variable {o}

/-- Only terminal allocations are released. -/
theorem admits_suspended {count : Int} {f : Fleet} {allocs : List Allocation} {gate : Time} {condition : String} :
    Admits o count f allocs gate [] { release allocs f with condition := condition } := by
  obtain ⟨admission, released, same⟩ := @release_frame f allocs
  have none : reservations o [] = [] := by unfold reservations; split <;> rfl
  refine ⟨?_, ?_, ?_, rfl, ?_, ?_, ?_, ⟨_, .inl rfl, ?_, fun some => absurd rfl some⟩, fun some => absurd rfl some,
    fun some => absurd rfl some, fun some => absurd rfl some, fun some => absurd rfl some⟩
  · rw [same]
    rfl
  · rw [same, none]
    rfl
  · rw [same]
    rfl
  · rw [same]
  · rw [same]
  · exact fun known => .inl (release_resetObserved ▸ known)
  · simp

/-- The demand is reconciled, and of the new slots those of the batch are kept. -/
theorem admits_batch {count n : Int} {f : Fleet} {allocs : List Allocation} {gate : Time} {admission : AdmissionState}
    (reconciled : (release allocs f).admission.reconcile count (activeCount allocs (release allocs f))
      o.config.maxRunners (activeCount allocs (release allocs f) = 0) = .ok (n, admission))
    {batch : List Slot} (fits : batch.length ≤ n)
    (whole : batch ≠ [] → (batch.length : Int) =
      if o.config.budgetDailyMicros > 0 then min n (affordable o.config f allocs gate) else n)
    (addressed : batch ≠ [] → o.config.networkProfile ≠ "" →
      o.overlayAddresses batch.length (o.overlayTaken allocs f) = .ok (batch.map Slot.address))
    (budget : batch ≠ [] → o.config.budgetDailyMicros > 0 → batch.length ≤ affordable o.config f allocs gate)
    (retention : batch ≠ [] → f.created.keys.length + batch.length ≤ 1000) {condition : String} :
    Admits o count f allocs gate batch
      (admitAll o batch
        { ({ release allocs f with admission := admission } : Fleet).refund (n - batch.length) with
          condition := condition }) := by
  obtain ⟨_, observed, base, start, counted, within⟩ := reconcile_spec reconciled
  rw [release_resetObserved] at observed start
  obtain ⟨former, released, same⟩ := @release_frame f allocs
  have frame := admitAll_eq o batch
    { ({ release allocs f with admission := admission } : Fleet).refund (n - batch.length) with condition := condition }
  refine ⟨?_, ?_, ?_, ?_, ?_, ?_, ?_, ⟨base, start, ?_, fun some => ?_⟩, fun some => ?_, addressed, budget, retention⟩
  · rw [frame, same]
    rfl
  · rw [frame, same]
    rfl
  · rw [frame, same]
    rfl
  · rw [frame, same]
    rfl
  · rw [frame, same]
    rfl
  · rw [frame, same]
    rfl
  · rw [frame]
    exact observed
  · rw [frame]
    simp only [Fleet.refund, counted]
    ring
  · have positive : 0 < batch.length := List.length_pos_iff.mpr some
    have := within (by omega)
    omega
  · simp only [granted, reconciled, whole some]

end Batch

end RunnerScout.Capacity
