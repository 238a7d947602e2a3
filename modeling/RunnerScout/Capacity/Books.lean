import Mathlib.Logic.Relation
import Mathlib.Tactic.Linarith
import RunnerScout.Capacity.Admits
import RunnerScout.Operator.Tick
import RunnerScout.State.Operations

/-! # The books of a scale set

What the ConfigMaps of a scale set amount to: its fleet, and the record of every
allocation that has one.  `Move` is the complete list of what the requests of an
operator do to the books, `Grows` is what processes that share the books may rely
on, and `Sound` is what every run keeps.  Records are removed only where one call
runs at a time; where several processes share the books, the run is shorter than
the retention of terminal records.
-/

namespace RunnerScout.Capacity

open Interaction Lifecycle Operator State

variable {r later : Allocation} {id : String} {f : Fleet}

/-! ## Calls -/

inductive Call where
  | desiredRunnerCount (o : Operator) (count : Int)
  | tick (o : Operator)
  | drained (o : Operator)
  | jobStarted (o : Operator) (j : JobStarted)
  | jobCompleted (o : Operator) (j : JobCompleted)

inductive Outcome where
  | counted (active : Int) (err : Option GoError)
  | ticked (result : TickResult)
  | drained (empty : Bool) (err : Option GoError)
  | handled (err : Option GoError)

def Call.operator : Call → Operator
  | .desiredRunnerCount o _ | .tick o | .drained o | .jobStarted o _ | .jobCompleted o _ => o

def Call.program : Call → Program Api Outcome
  | .desiredRunnerCount o count => do
    let (active, err) ← o.handleDesiredRunnerCount count
    return .counted active err
  | .tick o => do return .ticked (← o.tick)
  | .drained o => do
    let (empty, err) ← o.drained
    return .drained empty err
  | .jobStarted o j => do return .handled (← (handleJobStarted (some j)).interpret (o.stepCall ∅))
  | .jobCompleted o j => do return .handled (← (handleJobCompleted (some j)).interpret (o.stepCall ∅))

/-! ## Books -/

structure Books where
  fleet : Fleet
  record : String → Option Allocation
  clock : Time
  drawn : List String

/-- Who runs what, and with whom: every thread has one call that it may make again and
    again, and either no two calls overlap, or the clock stays within one retention. -/
structure Setting where
  name : String
  calls : Nat → Call
  named : ∀ thread, (calls thread).operator.config.name = name
  together : Nat → Nat → Prop
  clock : Time → Time → Prop
  removable : Books → String → Prop := fun _ _ => True
  apart : (∀ thread other, ¬ together thread other) ∨
    ∃ opening, ∀ t shown, clock t shown → opening ≤ shown ∧ shown < opening + terminalRetention

namespace Setting

variable (s : Setting)

def Serial : Prop := ∀ thread other, ¬ s.together thread other

/-- The clock may show the second instant some time after the first. -/
def Later : Time → Time → Prop := Relation.ReflTransGen s.clock

theorem Later.le {s : Setting} (forward : ∀ t shown, s.clock t shown → t ≤ shown) (t shown : Time)
    (since : s.Later t shown) : t ≤ shown := by
  induction since with
  | refl => exact Int.le_refl t
  | tail _ step ih => exact Int.le_trans ih (forward _ _ step)

def Shown (t : Time) : Prop := ∃ previous, s.clock previous t

def config (thread : Nat) : Config := (s.calls thread).operator.config

/-- Two instants of a run that overlaps itself are less than a retention apart. -/
theorem serial_of_retention {first second : Time} (one : s.Shown first) (two : s.Shown second)
    (old : terminalRetention ≤ second - first) : s.Serial := by
  obtain serial | ⟨opening, within⟩ := s.apart
  · exact serial
  · obtain ⟨_, before⟩ := one
    obtain ⟨_, after⟩ := two
    obtain ⟨low, _⟩ := within _ _ before
    obtain ⟨_, high⟩ := within _ _ after
    linarith

end Setting

/-! ## Records -/

/-- An allocation as it was admitted. -/
structure Fresh (id : String) (a : Allocation) : Prop where
  named : a.id = id
  phase : a.phase = .pending
  terminalAt : a.terminalAt = 0
  offering : a.offering = {}
  rejectedAt : a.rejectedAt = ∅

/-- No outcome is lost, and no rejection that has one. -/
structure Remembers (r later : Allocation) : Prop where
  outcomes : ∀ pool, r.outcomes.lookup pool ≠ none → later.outcomes.lookup pool ≠ none
  rejectedAt : ∀ pool t, r.rejectedAt.lookup pool = some t → r.outcomes.lookup pool ≠ none →
    later.rejectedAt.lookup pool = some t

theorem Remembers.same (outcomes : later.outcomes = r.outcomes) (rejectedAt : later.rejectedAt = r.rejectedAt) :
    Remembers r later :=
  ⟨fun _ tried => outcomes ▸ tried, fun _ _ found _ => rejectedAt ▸ found⟩

theorem Remembers.trans {first second third : Allocation} (earlier : Remembers first second)
    (later : Remembers second third) : Remembers first third where
  outcomes := fun pool tried => later.outcomes pool (earlier.outcomes pool tried)
  rejectedAt := fun pool t found tried =>
    later.rejectedAt pool t (earlier.rejectedAt pool t found tried) (earlier.outcomes pool tried)

/-- What every writer of a record leaves alone. -/
structure Advances (r later : Allocation) : Prop where
  named : later.id = r.id
  requirements : later.requirements = r.requirements
  final : r.phase.terminal = true → later.phase = r.phase ∧ later.terminalAt = r.terminalAt
  offering : later.offering = r.offering ∨ later.offering.priceMicros ≤ r.requirements.maxPriceMicros
  profile : later.networkProfile = r.networkProfile
  overlay : later.wireGuardOverlayAddress = r.wireGuardOverlayAddress
  remembers : Remembers r later

theorem Advances.refl (r : Allocation) : Advances r r :=
  ⟨rfl, rfl, fun _ => ⟨rfl, rfl⟩, .inl rfl, rfl, rfl, .same rfl rfl⟩

theorem Advances.trans {first second third : Allocation} (earlier : Advances first second)
    (later : Advances second third) : Advances first third where
  named := later.named.trans earlier.named
  requirements := later.requirements.trans earlier.requirements
  final := fun terminal => by
    obtain ⟨phase, at_⟩ := earlier.final terminal
    obtain ⟨phase', at'⟩ := later.final (phase ▸ terminal)
    exact ⟨phase'.trans phase, at'.trans at_⟩
  offering := by
    obtain same | bounded := later.offering
    · obtain before | bounded := earlier.offering
      · exact .inl (same.trans before)
      · exact .inr (same ▸ bounded)
    · exact .inr (earlier.requirements ▸ bounded)
  profile := later.profile.trans earlier.profile
  overlay := later.overlay.trans earlier.overlay
  remembers := earlier.remembers.trans later.remembers

/-- What a record takes over from its pending admission. -/
structure TakesOver (entry a : Allocation) : Prop where
  requirements : a.requirements = entry.requirements
  profile : a.networkProfile = entry.networkProfile
  overlay : a.wireGuardOverlayAddress = entry.wireGuardOverlayAddress

/-- An instant read on behalf of an allocation, after it was admitted. -/
def Dated (s : Setting) (b : Books) (id : String) (t : Time) : Prop :=
  ∃ stamp, b.fleet.created.lookup id = some stamp ∧ s.Later stamp t ∧ s.Later t b.clock ∧ s.Shown t

/-- A new rejection has its outcome and the instant it was decided at; a record that ends,
    ends after every rejection in it, and gets no other. -/
structure Rejects (s : Setting) (b : Books) (id : String) (r later : Allocation) : Prop where
  dated : ∀ pool t, later.rejectedAt.lookup pool = some t →
    r.rejectedAt.lookup pool = some t ∨ (later.outcomes.lookup pool ≠ none ∧ Dated s b id t)
  final : r.phase.terminal = true → later.rejectedAt = r.rejectedAt
  ended : r.phase.terminal = false → later.phase.terminal = true →
    ∀ pool t, later.rejectedAt.lookup pool = some t → s.Later t later.terminalAt

theorem Rejects.same {s : Setting} {b : Books} (rejectedAt : later.rejectedAt = r.rejectedAt)
    (phase : later.phase = r.phase) : Rejects s b id r later := by
  refine ⟨fun _ _ found => .inl (rejectedAt ▸ found), fun _ => rejectedAt, fun live terminal => ?_⟩
  rw [phase, live] at terminal
  cases terminal

/-- A record past its retention. -/
structure Prunable (s : Setting) (b : Books) (id : String) (r : Allocation) : Prop where
  terminal : r.phase.terminal = true
  stopped : r.terminalAt ≠ 0
  old : ∃ now, s.Later now b.clock ∧ terminalRetention ≤ now - r.terminalAt
  released : r.phase = .timedOut ∨ b.fleet.isReleased id = true

/-! ## Moves -/

/-- A listing read some time ago, while the fleet was the one stored now. -/
structure Tallied (b : Books) (allocs : List Allocation) : Prop where
  nodup : (allocs.map Allocation.id).Nodup
  known : ∀ a ∈ allocs, ∃ r, b.record a.id = some r ∧ Advances a r
  others : ∀ id, b.record id ≠ none → id ∈ allocs.map Allocation.id ∨ id ∈ b.fleet.pending

/-- The names and instants of a batch: the names are new, and the clock was read after
    every earlier stamp, first at the budget gate and then for every allocation. -/
structure Timely (s : Setting) (b : Books) (gate : Time) (batch : List Slot) : Prop where
  nodup : (batch.map Slot.id).Nodup
  unused : ∀ slot ∈ batch, slot.id ∉ b.fleet.created
  drawn : ∀ slot ∈ batch, slot.id ∈ b.drawn
  gated : ∀ id stamp, b.fleet.created.lookup id = some stamp → s.Later stamp gate
  stamped : ∀ slot ∈ batch, s.Shown slot.now ∧ s.Later gate slot.now ∧ s.Later slot.now b.clock

inductive Move (s : Setting) (thread : Nat) (b : Books) : Books → Prop where
  | idle : Move s thread b b
  | clock (t : Time) (shown : s.clock b.clock t) : Move s thread b { b with clock := t }
  | draw (id : String) (unused : id ∉ b.drawn) (notFleet : id ≠ fleetName s.name) :
      Move s thread b { b with drawn := id :: b.drawn }
  /-- A pending admission becomes a record. -/
  | materialise (id : String) (a : Allocation) (waiting : id ∈ b.fleet.pending) (absent : b.record id = none)
      (fresh : Fresh id a)
      (entry : s.Serial → ∃ e, b.fleet.pending.lookup id = some e ∧ TakesOver e a) :
      Move s thread b { b with record := Function.update b.record id (some a) }
  | advance (id : String) (r later : Allocation) (found : b.record id = some r) (advances : Advances r later)
      (dated : later.terminalAt = r.terminalAt ∨ Dated s b id later.terminalAt) (rejects : Rejects s b id r later) :
      Move s thread b { b with record := Function.update b.record id (some later) }
  /-- Pending admissions that have their records are dropped. -/
  | migrate (f : Fleet) (pending : GoMap String Allocation) (bound : b.fleet.bind (s.config thread) = .ok f)
      (kept : ∀ id a, pending.lookup id = some a → b.fleet.pending.lookup id = some a)
      (dropped : ∀ id ∈ b.fleet.pending, id ∉ pending → b.record id ≠ none) :
      Move s thread b { b with fleet := { f with pending := pending } }
  | grant (o : Operator) (count : Int) (f after : Fleet) (allocs : List Allocation) (gate : Time) (batch : List Slot)
      (call : s.calls thread = .desiredRunnerCount o count) (bound : b.fleet.bind o.config = .ok f)
      (tallied : Tallied b allocs) (timely : Timely s b gate batch) (admits : Admits o count f allocs gate batch after) :
      Move s thread b { b with fleet := after }
  /-- A retry pass changes its own two maps only. -/
  | retry (f : Fleet) (used : GoMap Int Int) (reruns : GoMap Int PendingRerun)
      (bound : b.fleet.bind (s.config thread) = .ok f) :
      Move s thread b { b with fleet := { f with retriesUsedByRun := used, pendingReruns := reruns } }
  | prune (f : Fleet) (ids : List String) (serial : s.Serial) (bound : b.fleet.bind (s.config thread) = .ok f)
      (due : ∀ id ∈ ids, id ∉ b.fleet.pending ∧ ∃ r, b.record id = some r ∧ Prunable s b id r) :
      Move s thread b
        { b with fleet := { f with pruned := GoMap.insertAll (ids.map fun id => (id, true)) f.pruned } }
  | remove (id : String) (r : Allocation) (serial : s.Serial) (found : b.record id = some r)
      (prunable : Prunable s b id r) (marked : b.fleet.isPruned id = true) (removable : s.removable b id) :
      Move s thread b { b with record := Function.update b.record id none }

/-! ## Growth -/

/-- What the calls that share the books may rely on. -/
structure Grows (s : Setting) (b after : Books) : Prop where
  created : ∀ id stamp, b.fleet.created.lookup id = some stamp → after.fleet.created.lookup id = some stamp
  pending : ∀ id ∈ b.fleet.created, id ∈ after.fleet.pending → id ∈ b.fleet.pending
  records : ∀ id r, b.record id = some r → ∃ later, after.record id = some later ∧ Advances r later
  materialised : ∀ id, b.record id = none → after.record id ≠ none → id ∈ b.fleet.pending ∨ id ∉ b.fleet.created
  drawn : b.drawn ⊆ after.drawn
  pruned : ∀ id, after.fleet.isPruned id = b.fleet.isPruned id
  released : ∀ id, b.fleet.isReleased id = true → after.fleet.isReleased id = true
  clock : s.Later b.clock after.clock

theorem Grows.refl {s : Setting} (b : Books) : Grows s b b where
  created := fun _ _ found => found
  pending := fun _ _ waiting => waiting
  records := fun _ r found => ⟨r, found, .refl r⟩
  materialised := fun _ absent present => absurd absent present
  drawn := fun _ member => member
  pruned := fun _ => rfl
  released := fun _ released => released
  clock := .refl

theorem Grows.mem_created {s : Setting} {b after : Books} (grows : Grows s b after) (member : id ∈ b.fleet.created) :
    id ∈ after.fleet.created := by
  obtain ⟨stamp, found⟩ := GoMap.mem_iff.mp member
  exact GoMap.mem_iff.mpr ⟨stamp, grows.created id stamp found⟩

theorem Grows.trans {s : Setting} {first second third : Books} (earlier : Grows s first second)
    (later : Grows s second third) : Grows s first third where
  created := fun id stamp found => later.created id stamp (earlier.created id stamp found)
  pending := fun id member waiting =>
    earlier.pending id member (later.pending id (earlier.mem_created member) waiting)
  records := fun id r found => by
    obtain ⟨between, found, one⟩ := earlier.records id r found
    obtain ⟨last, found, two⟩ := later.records id between found
    exact ⟨last, found, one.trans two⟩
  materialised := fun id absent present => by
    by_cases between : second.record id = none
    · obtain waiting | uncreated := later.materialised id between present
      · by_cases member : id ∈ first.fleet.created
        · exact .inl (earlier.pending id member waiting)
        · exact .inr member
      · exact .inr fun member => uncreated (earlier.mem_created member)
    · exact earlier.materialised id absent between
  drawn := fun _ member => later.drawn (earlier.drawn member)
  pruned := fun id => (later.pruned id).trans (earlier.pruned id)
  released := fun id released => later.released id (earlier.released id released)
  clock := earlier.clock.trans later.clock

theorem Dated.grows {s : Setting} {b after : Books} {t : Time} (dated : Dated s b id t) (grows : Grows s b after) :
    Dated s after id t := by
  obtain ⟨stamp, found, since, until_, shown⟩ := dated
  exact ⟨stamp, grows.created id stamp found, since, until_.trans grows.clock, shown⟩

theorem grows_clock {s : Setting} {b : Books} {t : Time} (shown : s.clock b.clock t) :
    Grows s b { b with clock := t } :=
  { @Grows.refl s b with clock := .single shown }

theorem grows_draw {s : Setting} {b : Books} : Grows s b { b with drawn := id :: b.drawn } :=
  { @Grows.refl s b with drawn := fun _ member => List.mem_cons_of_mem _ member }

theorem grows_materialise {s : Setting} {b : Books} {a : Allocation} (waiting : id ∈ b.fleet.pending)
    (absent : b.record id = none) : Grows s b { b with record := Function.update b.record id (some a) } := by
  refine { @Grows.refl s b with records := fun other r found => ?_, materialised := fun other none present => ?_ }
  · have different : other ≠ id := by
      rintro rfl
      rw [absent] at found
      cases found
    exact ⟨r, by simpa [Function.update_of_ne different] using found, .refl r⟩
  · by_cases same : other = id
    · exact .inl (same ▸ waiting)
    · exact absurd none (by simpa [Function.update_of_ne same] using present)

theorem grows_advance {s : Setting} {b : Books} (found : b.record id = some r) (advances : Advances r later) :
    Grows s b { b with record := Function.update b.record id (some later) } := by
  refine { @Grows.refl s b with records := fun other r' known => ?_, materialised := fun other none present => ?_ }
  · by_cases same : other = id
    · subst same
      rw [found] at known
      cases known
      exact ⟨later, Function.update_self .., advances⟩
    · exact ⟨r', by simpa [Function.update_of_ne same] using known, .refl r'⟩
  · by_cases same : other = id
    · subst same
      rw [found] at none
      cases none
    · exact absurd none (by simpa [Function.update_of_ne same] using present)

/-- The fleet is rewritten: stamps stay, and of the stamped allocations none becomes pending again. -/
theorem grows_refleet {s : Setting} {b : Books}
    (created : ∀ id stamp, b.fleet.created.lookup id = some stamp → f.created.lookup id = some stamp)
    (pending : ∀ id ∈ b.fleet.created, id ∈ f.pending → id ∈ b.fleet.pending)
    (pruned : ∀ id, f.isPruned id = b.fleet.isPruned id)
    (released : ∀ id, b.fleet.isReleased id = true → f.isReleased id = true) : Grows s b { b with fleet := f } where
  created := created
  pending := pending
  records := fun _ r found => ⟨r, found, .refl r⟩
  materialised := fun _ absent present => absurd absent present
  drawn := fun _ member => member
  pruned := pruned
  released := released
  clock := .refl

/-! ## Soundness -/

structure Sound (s : Setting) (b : Books) : Prop where
  pendingCreated : ∀ id ∈ b.fleet.pending, id ∈ b.fleet.created
  recordCreated : ∀ id, b.record id ≠ none → id ∈ b.fleet.created
  accounted : ∀ id ∈ b.fleet.created, id ∈ b.fleet.pending ∨ b.record id ≠ none ∨ b.fleet.isPruned id = true
  prunedCreated : ∀ id, b.fleet.isPruned id = true → id ∈ b.fleet.created ∧ id ∉ b.fleet.pending
  prunedTerminal : ∀ id r, b.fleet.isPruned id = true → b.record id = some r → r.phase.terminal = true
  drawn : ∀ id ∈ b.fleet.created, id ∈ b.drawn
  named : ∀ id ∈ b.drawn, id ≠ fleetName s.name
  fresh : ∀ id a, b.fleet.pending.lookup id = some a → Fresh id a
  stamped : ∀ id stamp, b.fleet.created.lookup id = some stamp → s.Shown stamp ∧ s.Later stamp b.clock
  dated : ∀ id r, b.record id = some r → r.terminalAt = 0 ∨ Dated s b id r.terminalAt
  rejected : ∀ id r pool t, b.record id = some r → r.rejectedAt.lookup pool = some t → s.Shown t ∧ s.Later t b.clock

theorem isPruned_insertAll {ids : List String} :
    ({ f with pruned := GoMap.insertAll (ids.map fun id => (id, true)) f.pruned } : Fleet).isPruned id = true ↔
      id ∈ ids ∨ f.isPruned id = true := by
  unfold Fleet.isPruned
  induction ids generalizing f with
  | nil => simp [GoMap.insertAll]
  | cons first rest ih =>
    have step := @ih { f with pruned := f.pruned.insert first true }
    rw [List.map_cons, GoMap.insertAll, List.foldl_cons]
    refine step.trans ?_
    by_cases same : id = first
    · subst same
      simp
    · simp [same, AList.lookup_insert_ne same]

section Steps

variable {s : Setting} {thread : Nat} {b after : Books}

/-- One record is rewritten: what `Sound` says of the others stands. -/
theorem Sound.rewrite (sound : Sound s b) (created : id ∈ b.fleet.created)
    (terminal : b.fleet.isPruned id = true → r.phase.terminal = true)
    (dated : r.terminalAt = 0 ∨ Dated s b id r.terminalAt)
    (rejected : ∀ pool t, r.rejectedAt.lookup pool = some t → s.Shown t ∧ s.Later t b.clock) :
    Sound s { b with record := Function.update b.record id (some r) } where
  pendingCreated := sound.pendingCreated
  recordCreated := fun other present => by
    by_cases same : other = id
    · exact same ▸ created
    · exact sound.recordCreated other (by simpa [Function.update_of_ne same] using present)
  accounted := fun other member => by
    by_cases same : other = id
    · subst same
      exact .inr (.inl (by simp))
    · simpa [Function.update_of_ne same] using sound.accounted other member
  prunedCreated := sound.prunedCreated
  prunedTerminal := fun other found marked known => by
    by_cases same : other = id
    · subst same
      simp only [Function.update_self, Option.some.injEq] at known
      exact known ▸ terminal marked
    · exact sound.prunedTerminal other found marked (by simpa [Function.update_of_ne same] using known)
  drawn := sound.drawn
  named := sound.named
  fresh := sound.fresh
  stamped := sound.stamped
  dated := fun other found known => by
    by_cases same : other = id
    · subst same
      simp only [Function.update_self, Option.some.injEq] at known
      exact known ▸ dated
    · exact sound.dated other found (by simpa [Function.update_of_ne same] using known)
  rejected := fun other found pool t known cooled => by
    by_cases same : other = id
    · subst same
      simp only [Function.update_self, Option.some.injEq] at known
      exact rejected pool t (known ▸ cooled)
    · exact sound.rejected other found pool t (by simpa [Function.update_of_ne same] using known) cooled

/-- The fleet is rewritten without touching names, stamps, pruned or new pending entries. -/
theorem Sound.refleet (sound : Sound s b) (created : f.created = b.fleet.created)
    (kept : ∀ id a, f.pending.lookup id = some a → b.fleet.pending.lookup id = some a)
    (dropped : ∀ id ∈ b.fleet.pending, id ∉ f.pending → b.record id ≠ none)
    (pruned : ∀ id, f.isPruned id = b.fleet.isPruned id) : Sound s { b with fleet := f } := by
  have member (id : String) (waiting : id ∈ f.pending) : id ∈ b.fleet.pending := by
    obtain ⟨a, found⟩ := GoMap.mem_iff.mp waiting
    exact GoMap.mem_iff.mpr ⟨a, kept id a found⟩
  refine ⟨?_, ?_, ?_, ?_, ?_, ?_, sound.named, ?_, ?_, ?_, sound.rejected⟩
  · intro id waiting
    exact created ▸ sound.pendingCreated id (member id waiting)
  · intro id present
    exact created ▸ sound.recordCreated id present
  · intro id inside
    simp only [created, pruned] at inside ⊢
    obtain waiting | present | marked := sound.accounted id inside
    · by_cases still : id ∈ f.pending
      · exact .inl still
      · exact .inr (.inl (dropped id waiting still))
    · exact .inr (.inl present)
    · exact .inr (.inr marked)
  · intro id marked
    simp only [created, pruned] at marked ⊢
    obtain ⟨inside, waits⟩ := sound.prunedCreated id marked
    exact ⟨inside, fun waiting => waits (member id waiting)⟩
  · intro id r marked found
    simp only [pruned] at marked
    exact sound.prunedTerminal id r marked found
  · intro id inside
    exact sound.drawn id (created ▸ inside)
  · intro id a found
    exact sound.fresh id a (kept id a found)
  · intro id stamp found
    exact sound.stamped id stamp (created ▸ found)
  · intro id r found
    obtain zero | ⟨stamp, known, rest⟩ := sound.dated id r found
    · exact .inl zero
    · exact .inr ⟨stamp, created ▸ known, rest⟩

theorem newAllocation_fresh (o : Operator) (slot : Slot) :
    Fresh slot.id (o.newAllocation slot.id slot.now slot.catalog slot.address) := ⟨rfl, rfl, rfl, rfl, rfl⟩

theorem Sound.grant (sound : Sound s b) {o : Operator} {count : Int} {f' : Fleet} {allocs : List Allocation}
    {gate : Time} {batch : List Slot} (bound : b.fleet.bind o.config = .ok f) (timely : Timely s b gate batch)
    (admits : Admits o count f allocs gate batch f') : Sound s { b with fleet := f' } := by
  have frame := bind_frame bound
  have created : f'.created = GoMap.insertAll (stamps batch) b.fleet.created := by rw [admits.created, frame]
  have pending : f'.pending = GoMap.insertAll (admissions o batch) b.fleet.pending := by rw [admits.pending, frame]
  have pruned (id : String) : f'.isPruned id = b.fleet.isPruned id := by
    rw [Fleet.isPruned, admits.pruned, frame]
    rfl
  have inCreated (id : String) : id ∈ f'.created ↔ id ∈ batch.map Slot.id ∨ id ∈ b.fleet.created := by
    rw [created, GoMap.mem_insertAll, stamps_keys]
  have inPending (id : String) : id ∈ f'.pending ↔ id ∈ batch.map Slot.id ∨ id ∈ b.fleet.pending := by
    rw [pending, GoMap.mem_insertAll, admissions_keys]
  have unused (id : String) (old : id ∈ b.fleet.created) : id ∉ batch.map Slot.id := by
    intro member
    obtain ⟨slot, inside, rfl⟩ := List.mem_map.mp member
    exact timely.unused slot inside old
  refine ⟨?_, ?_, ?_, ?_, ?_, ?_, sound.named, ?_, ?_, ?_, sound.rejected⟩
  · intro id waiting
    rw [inCreated]
    obtain new | old := (inPending id).mp waiting
    · exact .inl new
    · exact .inr (sound.pendingCreated id old)
  · intro id present
    exact (inCreated id).mpr (.inr (sound.recordCreated id present))
  · intro id inside
    simp only [inPending, pruned]
    obtain new | old := (inCreated id).mp inside
    · exact .inl (.inl new)
    · obtain waiting | rest := sound.accounted id old
      · exact .inl (.inr waiting)
      · exact .inr rest
  · intro id marked
    simp only [pruned] at marked
    obtain ⟨inside, waits⟩ := sound.prunedCreated id marked
    refine ⟨(inCreated id).mpr (.inr inside), fun waiting => ?_⟩
    obtain new | old := (inPending id).mp waiting
    · exact unused id inside new
    · exact waits old
  · intro id r marked found
    simp only [pruned] at marked
    exact sound.prunedTerminal id r marked found
  · intro id inside
    obtain new | old := (inCreated id).mp inside
    · obtain ⟨slot, member, rfl⟩ := List.mem_map.mp new
      exact timely.drawn slot member
    · exact sound.drawn id old
  · intro id a found
    have nodup : ((admissions o batch).map Prod.fst).Nodup := by rw [admissions_keys]; exact timely.nodup
    simp only [pending] at found
    obtain new | ⟨_, old⟩ := GoMap.lookup_insertAll_cases nodup found
    · obtain ⟨slot, _, same⟩ := List.mem_map.mp new
      cases same
      exact newAllocation_fresh o slot
    · exact sound.fresh id a old
  · intro id stamp found
    have nodup : ((stamps batch).map Prod.fst).Nodup := by rw [stamps_keys]; exact timely.nodup
    simp only [created] at found
    obtain new | ⟨_, old⟩ := GoMap.lookup_insertAll_cases nodup found
    · obtain ⟨slot, member, same⟩ := List.mem_map.mp new
      cases same
      obtain ⟨shown, _, past⟩ := timely.stamped slot member
      exact ⟨shown, past⟩
    · exact sound.stamped id stamp old
  · intro id r found
    obtain zero | ⟨stamp, known, rest⟩ := sound.dated id r found
    · exact .inl zero
    · have old : id ∈ b.fleet.created := GoMap.mem_iff.mpr ⟨stamp, known⟩
      have absent : id ∉ (stamps batch).map Prod.fst := by rw [stamps_keys]; exact unused id old
      refine .inr ⟨stamp, ?_, rest⟩
      simp only [created]
      rw [GoMap.lookup_insertAll_of_notMem absent]
      exact known

theorem Move.sound (sound : Sound s b) (move : Move s thread b after) : Sound s after := by
  cases move with
  | idle => exact sound
  | clock t shown =>
    have later : s.Later b.clock t := .single shown
    refine { sound with
      stamped := fun id stamp found => ?_
      dated := fun id r found => ?_
      rejected := fun id r pool t found cooled => ?_ }
    · exact ⟨(sound.stamped id stamp found).1, (sound.stamped id stamp found).2.trans later⟩
    · obtain zero | ⟨stamp, known, since, past, shown⟩ := sound.dated id r found
      · exact .inl zero
      · exact .inr ⟨stamp, known, since, past.trans later, shown⟩
    · obtain ⟨read, past⟩ := sound.rejected id r pool t found cooled
      exact ⟨read, past.trans later⟩
  | draw id unused notFleet =>
    refine { sound with
      drawn := fun other inside => List.mem_cons_of_mem _ (sound.drawn other inside)
      named := fun other member => ?_ }
    obtain rfl | old := List.mem_cons.mp member
    · exact notFleet
    · exact sound.named other old
  | materialise id a waiting absent fresh entry =>
    have created := sound.pendingCreated id waiting
    refine sound.rewrite created (fun marked => absurd waiting (sound.prunedCreated id marked).2)
      (.inl fresh.terminalAt) fun pool t cooled => ?_
    rw [fresh.rejectedAt] at cooled
    cases cooled
  | advance id r later found advances dated rejects =>
    have created := sound.recordCreated id (by rw [found]; exact Option.some_ne_none _)
    refine sound.rewrite created (fun marked => ?_) ?_ fun pool t cooled => ?_
    · have terminal := sound.prunedTerminal id r marked found
      rw [(advances.final terminal).1]
      exact terminal
    · obtain same | dated := dated
      · rw [same]
        exact sound.dated id r found
      · exact .inr dated
    · obtain old | ⟨_, _, _, _, past, shown⟩ := rejects.dated pool t cooled
      · exact sound.rejected id r pool t found old
      · exact ⟨shown, past⟩
  | migrate f pending bound kept dropped =>
    exact sound.refleet (by rw [bind_frame bound]) kept dropped (fun id => by rw [bind_frame bound]; rfl)
  | grant o count f f' allocs gate batch call bound tallied timely admits => exact sound.grant bound timely admits
  | retry f used reruns bound =>
    rw [bind_frame bound]
    exact sound.refleet rfl (fun _ _ found => found) (fun _ waiting gone => absurd waiting gone) (fun _ => rfl)
  | prune f ids serial bound due =>
    have marked (id : String) : ({ f with pruned := GoMap.insertAll (ids.map fun id => (id, true)) f.pruned } :
        Fleet).isPruned id = true ↔ id ∈ ids ∨ b.fleet.isPruned id = true := by
      rw [isPruned_insertAll, bind_frame bound]
      rfl
    rw [bind_frame bound] at marked ⊢
    refine { sound with
      accounted := fun id inside => ?_
      prunedCreated := fun id mark => ?_
      prunedTerminal := fun id r mark found => ?_ }
    · obtain waiting | present | old := sound.accounted id inside
      · exact .inl waiting
      · exact .inr (.inl present)
      · exact .inr (.inr ((marked id).mpr (.inr old)))
    · obtain new | old := (marked id).mp mark
      · obtain ⟨waits, r, found, _⟩ := due id new
        exact ⟨sound.recordCreated id (by rw [found]; exact Option.some_ne_none _), waits⟩
      · exact sound.prunedCreated id old
    · obtain new | old := (marked id).mp mark
      · obtain ⟨_, r', known, prunable⟩ := due id new
        have found : b.record id = some r := found
        rw [known] at found
        cases found
        exact prunable.terminal
      · exact sound.prunedTerminal id r old found
  | remove id r serial found prunable marked removable =>
    refine { sound with
      recordCreated := fun other present => ?_
      accounted := fun other inside => ?_
      prunedTerminal := fun other r' mark known => ?_
      dated := fun other r' known => ?_
      rejected := fun other r' pool t known cooled => ?_ }
    · by_cases same : other = id
      · subst same
        simp at present
      · exact sound.recordCreated other (by simpa [Function.update_of_ne same] using present)
    · by_cases same : other = id
      · subst same
        exact .inr (.inr marked)
      · simpa [Function.update_of_ne same] using sound.accounted other inside
    · by_cases same : other = id
      · subst same
        simp at known
      · exact sound.prunedTerminal other r' mark (by simpa [Function.update_of_ne same] using known)
    · by_cases same : other = id
      · subst same
        simp at known
      · exact sound.dated other r' (by simpa [Function.update_of_ne same] using known)
    · by_cases same : other = id
      · subst same
        simp at known
      · exact sound.rejected other r' pool t (by simpa [Function.update_of_ne same] using known) cooled

theorem grows_migrate {c : Config} {pending : GoMap String Allocation} (bound : b.fleet.bind c = .ok f)
    (kept : ∀ id a, pending.lookup id = some a → b.fleet.pending.lookup id = some a) :
    Grows s b { b with fleet := { f with pending := pending } } := by
  rw [bind_frame bound]
  refine grows_refleet (fun _ _ found => found) (fun id _ waiting => ?_) (fun _ => rfl) (fun _ released => released)
  obtain ⟨a, found⟩ := GoMap.mem_iff.mp waiting
  exact GoMap.mem_iff.mpr ⟨a, kept id a found⟩

theorem grows_retry {c : Config} {used : GoMap Int Int} {reruns : GoMap Int PendingRerun}
    (bound : b.fleet.bind c = .ok f) :
    Grows s b { b with fleet := { f with retriesUsedByRun := used, pendingReruns := reruns } } := by
  rw [bind_frame bound]
  exact grows_refleet (fun _ _ found => found) (fun _ _ waiting => waiting) (fun _ => rfl) (fun _ released => released)

theorem grows_grant {o : Operator} {count : Int} {f' : Fleet} {allocs : List Allocation} {gate : Time}
    {batch : List Slot} (bound : b.fleet.bind o.config = .ok f) (timely : Timely s b gate batch)
    (admits : Admits o count f allocs gate batch f') : Grows s b { b with fleet := f' } := by
  have frame := bind_frame bound
  have unused (id : String) (old : id ∈ b.fleet.created) : id ∉ batch.map Slot.id := by
    intro member
    obtain ⟨slot, inside, rfl⟩ := List.mem_map.mp member
    exact timely.unused slot inside old
  refine grows_refleet (fun id stamp found => ?_) (fun id old waiting => ?_) (fun id => ?_) (fun id released => ?_)
  · have old : id ∈ b.fleet.created := GoMap.mem_iff.mpr ⟨stamp, found⟩
    have absent : id ∉ (stamps batch).map Prod.fst := by rw [stamps_keys]; exact unused id old
    rw [admits.created, GoMap.lookup_insertAll_of_notMem absent, frame]
    exact found
  · rw [admits.pending, GoMap.mem_insertAll, admissions_keys, frame] at waiting
    exact waiting.resolve_left (unused id old)
  · rw [Fleet.isPruned, admits.pruned, frame]
    rfl
  · have same : f'.isReleased id = (release allocs f).isReleased id := by simp only [Fleet.isReleased, admits.released]
    rw [same, release_isReleased, frame]
    exact .inl released

/-- Whatever shares the books with others only makes them grow. -/
theorem Move.grows (overlaps : ¬ s.Serial) (move : Move s thread b after) : Grows s b after := by
  cases move with
  | idle => exact .refl b
  | clock t shown => exact grows_clock shown
  | draw id unused notFleet => exact grows_draw
  | materialise id a waiting absent fresh entry => exact grows_materialise waiting absent
  | advance id r later found advances dated => exact grows_advance found advances
  | migrate f pending bound kept dropped => exact grows_migrate bound kept
  | grant o count f f' allocs gate batch call bound tallied timely admits => exact grows_grant bound timely admits
  | retry f used reruns bound => exact grows_retry bound
  | prune f ids serial bound due => exact absurd serial overlaps
  | remove id r serial found prunable marked removable => exact absurd serial overlaps

/-- Stamps are never taken back. -/
theorem Move.stamp (move : Move s thread b after) {stamp : Time} (found : b.fleet.created.lookup id = some stamp) :
    after.fleet.created.lookup id = some stamp := by
  cases move with
  | grant o count f f' allocs gate batch call bound tallied timely admits =>
    exact (grows_grant (s := s) bound timely admits).created id stamp found
  | migrate f pending bound | retry f used reruns bound | prune f ids serial bound =>
    rw [bind_frame bound]
    exact found
  | idle | clock | draw | materialise | advance | remove => exact found

/-- Only a call that grants admissions stamps a name that was not stamped before. -/
theorem Move.grants (move : Move s thread b after) {stamp : Time} (found : after.fleet.created.lookup id = some stamp)
    (new : id ∉ b.fleet.created) : ∃ o count f allocs gate batch, s.config thread = o.config ∧
      b.fleet.bind o.config = .ok f ∧ Tallied b allocs ∧ Timely s b gate batch ∧
      Admits o count f allocs gate batch after.fleet ∧ after.record = b.record := by
  have old {f : Fleet} (same : f.created = b.fleet.created) (found : f.created.lookup id = some stamp) : False :=
    new (same ▸ GoMap.mem_iff.mpr ⟨stamp, found⟩)
  cases move with
  | grant o count f f' allocs gate batch call bound tallied timely admits =>
    exact ⟨o, count, f, allocs, gate, batch, by simp only [Setting.config, call, Call.operator], bound, tallied, timely,
      admits, rfl⟩
  | migrate f pending bound | retry f used reruns bound | prune f ids serial bound =>
    exact (old (by rw [bind_frame bound]) found).elim
  | idle | clock | draw | materialise | advance | remove => exact (old rfl found).elim

end Steps

end RunnerScout.Capacity
