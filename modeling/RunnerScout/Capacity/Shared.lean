import RunnerScout.Capacity.Books

/-! # The books in the cluster

The ConfigMaps of a cluster read as books, with the history of all writes.  Every
request that changes a ConfigMap, the clock or the names drawn is one `Move` of the
books (`Act`), so that a program is safe for any invariant the moves keep.

Two views of one run: `Setting.rely` is that of a call among the calls of other
processes; `Setting.workers` also lets the goroutines of the call itself interfere
with each other, which never write the fleet and never remove a record.
-/

namespace RunnerScout.Capacity

open Interaction Lifecycle Operator State

/-- One write: who made it, and the maps before and after it. -/
structure Entry where
  thread : Nat
  before : Maps
  after : Maps

/-- A cluster with its history, the latest write first. -/
abbrev Cluster := World (List Entry)

namespace Setting

variable (s : Setting)

def books (w : Cluster) : Books := ⟨w.fleet s.name, w.record, w.clock, w.drawn⟩

def rules : Rules (List Entry) where
  name := s.name
  clock := s.clock
  removable := fun w id => s.removable (s.books w) id
  wrote := fun thread before after history => ⟨thread, before, after⟩ :: history
  outside := fun _ history _ _ after => after = history

/-- Thread by thread, the calls of a run. -/
def starts (thread : Nat) (program : Program Api Outcome) : Prop := program = (s.calls thread).program

end Setting

/-- What one request may do to the cluster. -/
structure Act (s : Setting) (thread : Nat) (w after : Cluster) : Prop where
  move : Move s thread (s.books w) (s.books after)
  logged : (after.maps = w.maps ∧ after.history = w.history) ∨
    after.history = ⟨thread, w.maps, after.maps⟩ :: w.history
  wellFormed : WellFormed s.name w → WellFormed s.name after
  evolves : Evolves w after

/-- An invariant of the books and their history that every move keeps. -/
def Preserved (s : Setting) (J : Cluster → Prop) : Prop :=
  ∀ thread w after, WellFormed s.name w → Sound s (s.books w) → J w → Act s thread w after → J after

namespace Setting

variable (s : Setting) (J : Cluster → Prop)

structure Invariant (w : Cluster) : Prop where
  wellFormed : WellFormed s.name w
  sound : Sound s (s.books w)
  extra : J w

def rely : Rely Cluster where
  invariant := s.Invariant J
  rely := fun _ w after => Evolves w after ∧ Grows s (s.books w) (s.books after) ∧ (s.Serial → after = w)
  together := s.together
  refl := fun _ w => ⟨.refl w, .refl _, fun _ => rfl⟩
  trans := fun _ _ _ _ earlier later =>
    ⟨earlier.1.trans later.1, earlier.2.1.trans later.2.1, fun serial => (later.2.2 serial).trans (earlier.2.2 serial)⟩

def workers : Rely Cluster where
  invariant := s.Invariant J
  rely := fun _ w after => Evolves w after ∧ Grows s (s.books w) (s.books after)
  together := fun _ _ => True
  refl := fun _ w => ⟨.refl w, .refl _⟩
  trans := fun _ _ _ _ earlier later => ⟨earlier.1.trans later.1, earlier.2.trans later.2⟩

section Triples

variable (thread : Nat) {α : Type} (pre : Cluster → Prop) (program : Program Api α) (post : α → Cluster → Prop)

abbrev Triple : Prop := (s.rely J).Triple s.rules.semantics thread pre program post

abbrev WorkerTriple : Prop := (s.workers J).Triple s.rules.semantics thread pre program post

end Triples

end Setting

section Rules

variable {s : Setting} {J : Cluster → Prop} {thread : Nat} {pre : Cluster → Prop}

theorem rely_respects : Respects s.rules (s.rely J) :=
  ⟨fun _ kept => kept.wellFormed, fun _ _ _ relied => relied.1⟩

theorem workers_respects : Respects s.rules (s.workers J) :=
  ⟨fun _ kept => kept.wellFormed, fun _ _ _ relied => relied.1⟩

theorem Act.invariant (preserved : Preserved s J) {w after : Cluster} (act : Act s thread w after)
    (kept : s.Invariant J w) : s.Invariant J after :=
  ⟨act.wellFormed kept.wellFormed, act.move.sound kept.sound,
    preserved thread w after kept.wellFormed kept.sound kept.extra act⟩

theorem Act.keeps (preserved : Preserved s J) {w after : Cluster} (act : Act s thread w after)
    (kept : s.Invariant J w) : Keeps (s.rely J) thread w after := by
  refine ⟨act.invariant preserved kept, fun other overlap => ?_⟩
  have overlaps : ¬ s.Serial := fun serial => serial thread other overlap
  exact ⟨act.evolves, act.move.grows overlaps, fun serial => absurd serial overlaps⟩

/-- A worker's request: the books grow. -/
theorem Act.keepsWorkers (preserved : Preserved s J) {w after : Cluster} (act : Act s thread w after)
    (kept : s.Invariant J w) (grows : Grows s (s.books w) (s.books after)) : Keeps (s.workers J) thread w after :=
  ⟨act.invariant preserved kept, fun _ _ => ⟨act.evolves, grows⟩⟩

/-- What holds among the workers of a call holds for the call among the others. -/
theorem of_workers {α : Type} {program : Program Api α} {post : α → Cluster → Prop}
    (triple : s.WorkerTriple J thread pre program post) :
    s.Triple J thread pre program post := by
  have same (w : Cluster) : (s.rely J).invariant w ↔ (s.workers J).invariant w := Iff.rfl
  refine triple.weaken same ?_ ?_
  · rintro before after ⟨evolves, grows, _⟩
    exact ⟨evolves, grows⟩
  · intro before after promised other overlap
    obtain ⟨evolves, grows⟩ := promised other trivial
    exact ⟨evolves, grows, fun serial => absurd overlap (serial thread other)⟩

end Rules

/-! ## Every write is a move -/

section Acts

variable {s : Setting} {thread : Nat} {w after : Cluster}

theorem act_clock {t : Time} (shown : s.clock w.clock t) : Act s thread w { w with clock := t } where
  move := .clock t shown
  logged := .inl ⟨rfl, rfl⟩
  wellFormed := id
  evolves := ⟨Nat.le_refl _, fun _ _ found => .inl found⟩

theorem act_draw {id : String} (unused : id ∉ w.drawn) (notFleet : id ≠ fleetName s.name) :
    Act s thread w { w with drawn := id :: w.drawn } where
  move := .draw id unused notFleet
  logged := .inl ⟨rfl, rfl⟩
  wellFormed := fun wellFormed => wellFormed
  evolves := ⟨Nat.le_refl _, fun _ _ found => .inl found⟩

theorem books_putRecord {stored : Allocation} (canonical : StoredRecord { stored with revision := 0 })
    (notFleet : stored.id ≠ fleetName s.name) : s.books (putRecord s.rules thread w stored) =
      { s.books w with record := Function.update (s.books w).record stored.id (some stored) } := by
  have records := @putRecord_record stored _ s.rules thread w canonical
  have fleet := @putRecord_fleet stored _ s.rules thread w notFleet
  simp only [Setting.books, records]
  rw [show (putRecord s.rules thread w stored).fleet s.name = w.fleet s.name from fleet]
  rfl

/-- A record is put under its name, as a move of the books. -/
theorem act_putRecord {stored : Allocation} (canonical : StoredRecord { stored with revision := 0 })
    (notFleet : stored.id ≠ fleetName s.name) (newer : w.version < stored.revision)
    (move : Move s thread (s.books w)
      { s.books w with record := Function.update (s.books w).record stored.id (some stored) }) :
    Act s thread w (putRecord s.rules thread w stored) where
  move := by
    rw [books_putRecord canonical notFleet]
    exact move
  logged := .inr rfl
  wellFormed := fun wellFormed => wellFormed_write wellFormed newer
    (putRecord_genuine notFleet canonical (Nat.ne_of_gt (Nat.zero_lt_of_lt newer)))
  evolves := evolves_write newer rfl

theorem act_saved (wellFormed : WellFormed s.name w) {x held stored : Allocation} {revision : Revision}
    (saved : RecordSaved s.rules thread w x revision stored after) (seen : RecordSeen held w)
    (named : x.id = held.id) (current : revision = held.revision) (advances : Advances held stored)
    (dated : stored.terminalAt = held.terminalAt ∨ Dated s (s.books w) held.id stored.terminalAt)
    (rejects : Rejects s (s.books w) held.id held stored) :
    Act s thread w after ∧ Grows s (s.books w) (s.books after) := by
  obtain ⟨record, found, stores, newer, canonical, rfl⟩ := saved
  rw [named] at found
  obtain rfl : record = held := seen.2.2 record found (stores.current.trans current)
  have notFleet := (wellFormed.lookup_of_record found).1
  have same : stored.id = record.id := stores.id_eq
  have notFleet : stored.id ≠ fleetName s.name := same ▸ notFleet
  have found : (s.books w).record stored.id = some record := same ▸ found
  rw [← same] at dated rejects
  refine ⟨act_putRecord canonical notFleet newer (.advance _ record stored found advances dated rejects), ?_⟩
  rw [books_putRecord canonical notFleet]
  exact grows_advance found advances

theorem act_created (sound : Sound s (s.books w)) {x stored : Allocation}
    (created : RecordCreated s.rules thread w x stored after) (waiting : x.id ∈ (s.books w).fleet.pending)
    (fresh : Fresh x.id x)
    (entry : s.Serial → ∃ e, (s.books w).fleet.pending.lookup x.id = some e ∧ TakesOver e x) :
    Act s thread w after ∧ Grows s (s.books w) (s.books after) := by
  obtain ⟨free, saved, newer, canonical, rfl⟩ := created
  have same : stored.id = x.id := by rw [saved]
  have takesOver (e : Allocation) (held : TakesOver e x) : TakesOver e stored := by
    rw [saved]
    exact ⟨held.requirements, held.profile, held.overlay⟩
  have stillFresh : Fresh stored.id stored := by
    rw [saved]
    exact ⟨fresh.named, fresh.phase, fresh.terminalAt, fresh.offering, fresh.rejectedAt⟩
  have absent : (s.books w).record stored.id = none := by
    rw [same]
    simp only [Setting.books, World.record, Maps.record, free, Option.bind_none]
  rw [← same] at waiting entry
  have notFleet : stored.id ≠ fleetName s.name :=
    sound.named _ (sound.drawn _ (sound.pendingCreated _ waiting))
  refine ⟨act_putRecord canonical notFleet newer (.materialise _ stored waiting absent stillFresh fun serial => ?_), ?_⟩
  · obtain ⟨e, found, held⟩ := entry serial
    exact ⟨e, found, takesOver e held⟩
  rw [books_putRecord canonical notFleet]
  exact grows_materialise waiting absent

theorem act_opened (wellFormed : WellFormed s.name w) (opened : FleetOpened s.rules thread w after) :
    Act s thread w after ∧ s.books after = s.books w := by
  have record := opened.record wellFormed
  have fleet : after.fleet s.name = w.fleet s.name := opened.fleet
  have evolves := opened.evolves
  have genuine := opened.wellFormed wellFormed
  obtain ⟨_, version, _, applied⟩ := opened
  have clock : after.clock = w.clock := by rw [applied]; rfl
  have drawn : after.drawn = w.drawn := by rw [applied]; rfl
  have logged : after.history = ⟨thread, w.maps, after.maps⟩ :: w.history := by rw [applied]; rfl
  have same : s.books after = s.books w := by simp only [Setting.books, record, fleet, clock, drawn]
  refine ⟨⟨?_, .inr logged, fun _ => genuine, evolves⟩, same⟩
  rw [same]
  exact .idle

theorem act_fleetSaved (wellFormed : WellFormed s.name w) {cm : ConfigMap} {f : Fleet}
    (saved : FleetSaved s.rules thread w cm f after)
    (move : Move s thread (s.books w) { s.books w with fleet := f }) :
    Act s thread w after ∧ s.books after = { s.books w with fleet := f } := by
  obtain ⟨found, version, newer, rfl⟩ := saved
  have record := @putFleet_record _ s.rules thread w cm f version wellFormed found newer
  have fleet := @putFleet_fleet _ s.rules thread w cm f version
  have same : s.books (putFleet s.rules thread w cm f version) = { s.books w with fleet := f } := by
    simp only [Setting.books, record]
    rw [show (putFleet s.rules thread w cm f version).fleet s.name = f from fleet]
    rfl
  refine ⟨⟨?_, .inr rfl, fun _ => ?_, evolves_write newer rfl⟩, same⟩
  · rw [same]
    exact move
  · exact wellFormed_write wellFormed newer (putFleet_genuine (wellFormed _ _ found) newer)

theorem act_deletes {id : String} (notFleet : id ≠ fleetName s.name) (deletes : s.rules.Deletes thread w id after)
    (move : s.removable (s.books w) id →
      Move s thread (s.books w) { s.books w with record := Function.update (s.books w).record id none }) :
    Act s thread w after ∧
      s.books after = { s.books w with record := Function.update (s.books w).record id none } := by
  obtain ⟨_, removable, version, newer, rfl⟩ := deletes
  have record := @erase_record id _ s.rules thread w version
  have fleet := @erase_fleet id _ s.rules thread w version notFleet
  have same : s.books (s.rules.write thread w (w.maps.erase id) version) =
      { s.books w with record := Function.update (s.books w).record id none } := by
    simp only [Setting.books, record]
    rw [show (s.rules.write thread w (w.maps.erase id) version).fleet s.name = w.fleet s.name from fleet]
    rfl
  refine ⟨⟨?_, .inr rfl, fun wellFormed => erase_wellFormed wellFormed newer, erase_evolves newer⟩, same⟩
  rw [same]
  exact move removable

end Acts

end RunnerScout.Capacity
