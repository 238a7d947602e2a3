import RunnerScout.Lifecycle.Resources
import RunnerScout.State.Operations
import RunnerScout.State.Replay

/-! # Cleanup obligations

The references a record carries say what has to be cleaned up.  `Save` compares the
lengths of two merged lists; that this is inclusion of sets (`Merged.length_eq_iff`)
is what makes the references of a record grow along every run of saves, whatever
lists the writers come with.
-/

namespace RunnerScout.Lifecycle

/-- The length test of `Save` is inclusion. -/
theorem Merged.length_eq_iff {previous incoming retained : List ResourceReference}
    (merged : Merged (previous ++ incoming) retained) (nodup : incoming.Nodup) :
    retained.length = incoming.length ↔ previous ⊆ incoming := by
  have included : incoming ⊆ retained := fun r member => (merged.mem r).mpr (List.mem_append_right _ member)
  have fits := List.subperm_of_subset nodup included
  constructor
  · intro same r member
    have perm := fits.perm_of_length_le (Nat.le_of_eq same)
    apply perm.mem_iff.mpr
    exact (merged.mem r).mpr (List.mem_append_left _ member)
  · intro previously
    have back : retained ⊆ incoming := by
      intro r member
      obtain before | now := List.mem_append.mp ((merged.mem r).mp member)
      · exact previously before
      · exact now
    exact Nat.le_antisymm (List.subperm_of_subset merged.nodup back).length_le fits.length_le

/-- A save that leaves out a recorded reference, or comes with another generation of it. -/
def Drops (previous a : Allocation) : Prop :=
  ∃ r ∈ previous.resources, r ∉ a.resources ∨ ∃ x ∈ a.resources, x.kind = r.kind ∧ x.id = r.id ∧ x.uid ≠ r.uid

theorem incomingResources_keeps {previous a : Allocation} {incoming : List ResourceReference}
    (accepted : incomingResources previous a = .ok incoming) :
    Merged a.resources incoming ∧ previous.resources ⊆ incoming := by
  unfold incomingResources at accepted
  split at accepted
  · cases accepted
  rename_i merged changed merges
  split at accepted
  · cases accepted
  rename_i retained changed' again
  split at accepted
  · cases accepted
  rename_i same
  cases accepted
  have canonical := mergeResources_merged merges
  rw [List.nil_append] at canonical
  exact ⟨canonical, ((mergeResources_merged again).length_eq_iff canonical.nodup).mp (not_not.mp same)⟩

theorem not_drops {previous a : Allocation} {incoming : List ResourceReference}
    (accepted : incomingResources previous a = .ok incoming) : ¬ Drops previous a := by
  obtain ⟨merged, kept⟩ := incomingResources_keeps accepted
  rintro ⟨r, recorded, missing | ⟨x, given, kind, id, other⟩⟩
  · exact missing ((merged.mem r).mp (kept recorded))
  · exact other (merged.identity x ((merged.mem x).mpr given) r (kept recorded) kind id)

/-- What a save that is applied does to the references. -/
theorem Stores.keeps {record x after : Allocation} {revision : Revision} (stores : Stores record x revision after) :
    ¬ Drops record x ∧ record.resources ⊆ after.resources := by
  obtain ⟨_, _, _, _, accepted, accepts, same⟩ := stores
  rw [same]
  unfold acceptSave at accepts
  split at accepts
  · cases accepts
  rename_i incoming checked
  split at accepts
  · cases accepts
  rename_i resources changed merges
  cases accepts
  refine ⟨not_drops checked, fun r recorded => ?_⟩
  have canonical := mergeResources_merged merges
  rw [List.nil_append] at canonical
  exact (canonical.mem r).mpr ((incomingResources_keeps checked).2 recorded)

end RunnerScout.Lifecycle

namespace RunnerScout.State

open Interaction Lifecycle Operator

theorem StoredRecord.canonical {a : Allocation} (stored : StoredRecord a) :
    ∃ references, Merged references a.resources := by
  obtain ⟨references, changed, merges⟩ := stored.merged
  exact ⟨_, mergeResources_merged merges⟩

theorem WellFormed.canonical {γ : Type} {name : String} {w : World γ} (wellFormed : WellFormed name w) {id : String}
    {r : Allocation} (found : w.record id = some r) : ∃ references, Merged references r.resources := by
  obtain ⟨_, a, cm, _, stored, _, _, rfl⟩ := wellFormed.lookup_of_record found
  exact stored.canonical

/-! ## Saves at once -/

/-- A write that was applied, and what stood in the store before and after it. -/
structure Write where
  thread : Nat
  before : Maps
  after : Maps

/-- Any number of saves of any records, each of them a thread. -/
structure Saves where
  name : String
  calls : Nat → Allocation × Revision
  apart : ∀ thread, (calls thread).1.id ≠ fleetName name

namespace Saves

variable (s : Saves)

def rules : Rules (List Write) where
  name := s.name
  clock := fun _ _ => True
  removable := fun _ _ => True
  wrote := fun thread before after history => ⟨thread, before, after⟩ :: history
  outside := fun _ history _ _ after => after = history

def starts (thread : Nat) (program : Program Api (Except GoError Allocation)) : Prop :=
  program = (⟨s.name⟩ : Kubernetes).save (s.calls thread).1 (s.calls thread).2

/-- The rest of the operator leaves the records alone. -/
structure Elsewhere (w after : World (List Write)) : Prop where
  wellFormed : WellFormed s.name after
  evolves : Evolves w after
  record : after.record = w.record
  history : after.history = w.history

def Initial (w : World (List Write)) : Prop := WellFormed s.name w ∧ w.history = []

abbrev Run (system : System Api (World (List Write)) (Except GoError Allocation)) : Prop :=
  System.Reachable s.rules.semantics s.Elsewhere s.starts System.concurrent s.Initial system

/-! ## What a run keeps -/

structure Kept (w : World (List Write)) : Prop where
  wellFormed : WellFormed s.name w
  grown : ∀ write ∈ w.history, ∀ id r, write.before.record id = some r →
    ∃ now, w.record id = some now ∧ r.resources ⊆ now.resources
  kept : ∀ write ∈ w.history, ∀ r, write.before.record (s.calls write.thread).1.id = some r →
    ¬ Drops r (s.calls write.thread).1

theorem grown_refl (_ : Nat) (w : World (List Write)) : Evolves w w ∧ w.history ⊆ w.history :=
  ⟨.refl w, List.Subset.refl _⟩

theorem grown_trans (_ : Nat) (w later last : World (List Write))
    (first : Evolves w later ∧ w.history ⊆ later.history)
    (second : Evolves later last ∧ later.history ⊆ last.history) : Evolves w last ∧ w.history ⊆ last.history :=
  ⟨first.1.trans second.1, List.Subset.trans first.2 second.2⟩

def rely : Rely (World (List Write)) where
  invariant := s.Kept
  rely := fun _ w after => Evolves w after ∧ w.history ⊆ after.history
  refl := grown_refl
  trans := grown_trans

theorem respects : Respects s.rules s.rely := ⟨fun _ kept => kept.wellFormed, fun _ _ _ relied => relied.1⟩

variable {s} {thread : Nat} {w : World (List Write)} {stored : Allocation}

theorem elsewhere_kept {after : World (List Write)} (kept : s.Kept w) (elsewhere : s.Elsewhere w after) :
    s.Kept after ∧ ∀ thread, s.rely.rely thread w after := by
  refine ⟨⟨elsewhere.wellFormed, ?_, ?_⟩, fun _ => ⟨elsewhere.evolves, by rw [elsewhere.history]; exact List.Subset.refl _⟩⟩
  · rw [elsewhere.history, elsewhere.record]
    exact kept.grown
  · rw [elsewhere.history]
    exact kept.kept

/-- A record is put in place of one whose references it carries. -/
theorem put_kept (kept : s.Kept w) (named : stored.id = (s.calls thread).1.id) (newer : w.version < stored.revision)
    (canonical : StoredRecord { stored with revision := 0 })
    (replaces : ∀ r, w.record stored.id = some r → ¬ Drops r (s.calls thread).1 ∧ r.resources ⊆ stored.resources) :
    Keeps s.rely thread w (putRecord s.rules thread w stored) ∧
      ∃ write ∈ (putRecord s.rules thread w stored).history, write.thread = thread ∧
        write.after.record stored.id = some stored := by
  have notFleet : stored.id ≠ fleetName s.rules.name := named ▸ s.apart thread
  have records := @putRecord_record stored _ s.rules thread w canonical
  have grows (id : String) (r : Allocation) (found : w.record id = some r) :
      ∃ now, (putRecord s.rules thread w stored).record id = some now ∧ r.resources ⊆ now.resources := by
    rw [records]
    by_cases same : id = stored.id
    · subst same
      exact ⟨stored, Function.update_self _ _ _, (replaces r found).2⟩
    · rw [Function.update_of_ne same]
      exact ⟨r, found, List.Subset.refl _⟩
  refine ⟨⟨⟨?_, ?_, ?_⟩, fun _ _ => ⟨evolves_write newer rfl, List.subset_cons_self _ _⟩⟩,
    _, List.mem_cons_self, rfl, ?_⟩
  · exact wellFormed_write kept.wellFormed newer
      (putRecord_genuine notFleet canonical (Nat.ne_of_gt (Nat.zero_lt_of_lt newer)))
  · intro write member id r found
    obtain rfl | earlier := List.mem_cons.mp member
    · exact grows id r found
    -- what stood there earlier is contained in what stood there until now
    · obtain ⟨now, current, included⟩ := kept.grown write earlier id r found
      obtain ⟨next, replaced, more⟩ := grows id now current
      exact ⟨next, replaced, List.Subset.trans included more⟩
  · intro write member r found
    obtain rfl | earlier := List.mem_cons.mp member
    · exact (replaces r (named ▸ found)).1
    · exact kept.kept write earlier r found
  · have found := congrFun records stored.id
    rwa [Function.update_self] at found

/-- A save that returns a record has written it. -/
def Answered (thread : Nat) : Except GoError Allocation → World (List Write) → Prop
  | .ok stored, w => ∃ write ∈ w.history, write.thread = thread ∧ write.after.record stored.id = some stored
  | .error _, _ => True

theorem answered_stable (reply : Except GoError Allocation) : s.rely.Stable thread (Answered thread reply) := by
  intro before after _ relied holds
  cases reply with
  | error e => trivial
  | ok stored =>
    obtain ⟨write, member, found⟩ := holds
    exact ⟨write, relied.2 member, found⟩

theorem save_steps (thread : Nat) :
    s.rely.Triple s.rules.semantics thread s.Kept
      ((⟨s.name⟩ : Kubernetes).save (s.calls thread).1 (s.calls thread).2) (Answered thread) := by
  by_cases fresh : (s.calls thread).2 = 0
  · rw [fresh]
    have create : s.rely.Triple s.rules.semantics thread (fun w => s.rely.invariant w ∧ True)
        ((⟨s.name⟩ : Kubernetes).save (s.calls thread).1 0) (Answered thread) := by
      refine create_triple rfl (Rely.stable_pure True) (fun _ _ _ _ _ => trivial) ?_
      intro w stored after kept _ created
      obtain ⟨free, saved, newer, canonical, rfl⟩ := created
      have named : stored.id = (s.calls thread).1.id := by rw [saved]
      obtain ⟨keeps, written⟩ := put_kept kept named newer canonical fun r found => by
        rw [named] at found
        simp [World.record, Maps.record, free] at found
      exact ⟨keeps, written, fun _ => trivial⟩
    exact create.pre_mono fun w kept => ⟨kept, trivial⟩
  · refine (save_triple s.respects rfl fresh (Rely.stable_pure True) (fun _ _ _ _ => trivial) ?_).pre_mono
      fun _ _ => trivial
    intro w stored after kept _ replaced
    obtain ⟨record, found, stores, newer, canonical, rfl⟩ := replaced
    have named : stored.id = (s.calls thread).1.id := by rw [stores.saved]
    obtain ⟨keeps, written⟩ := put_kept kept named newer canonical fun r current => by
      rw [named, found] at current
      cases current
      exact stores.keeps
    exact ⟨keeps, written, fun _ => trivial⟩

theorem run_safe {system : System Api (World (List Write)) (Except GoError Allocation)} (run : s.Run system) :
    s.rely.SystemSafe s.rules.semantics Answered system := by
  refine s.rely.reachable_safe ?_ (fun _ _ => elsewhere_kept) ?_ run
  · intro w ⟨wellFormed, unwritten⟩
    constructor
    · exact wellFormed
    · simp [unwritten]
    · simp [unwritten]
  · intro thread w program kept started
    subst started
    exact (save_steps thread).safe answered_stable kept

/-- A reference that stands in a record, or stood in it before some write. -/
def Ever (w : World (List Write)) (id : String) (reference : ResourceReference) : Prop :=
  ∃ r, (w.record id = some r ∨ ∃ write ∈ w.history, write.before.record id = some r) ∧ reference ∈ r.resources

/-- Obligations are never dropped: what a record ever carried it carries, with one
    generation to an identity, and never more than 64 of them; no save was applied that
    leaves out a reference or comes with another generation of it, and only a save that
    was applied succeeds. -/
theorem obligations_kept {s : Saves} {system : System Api (World (List Write)) (Except GoError Allocation)}
    (run : s.Run system) :
    (∀ id reference, Ever system.world id reference →
      ∃ now, system.world.record id = some now ∧ reference ∈ now.resources) ∧
    (∀ id reference other, Ever system.world id reference → Ever system.world id other →
      reference.kind = other.kind → reference.id = other.id → reference.uid = other.uid) ∧
    (∀ id r, system.world.record id = some r → r.resources.length ≤ 64) ∧
    (∀ write ∈ system.world.history, ∀ r, write.before.record (s.calls write.thread).1.id = some r →
      ¬ Drops r (s.calls write.thread).1) ∧
    ∀ thread stored, system.threads thread = some (.done (.ok stored)) →
      ∃ write ∈ system.world.history, write.thread = thread ∧ write.after.record stored.id = some stored := by
  have safe := run_safe run
  have kept := safe.invariant
  have present (id : String) (reference : ResourceReference) (ever : Ever system.world id reference) :
      ∃ now, system.world.record id = some now ∧ reference ∈ now.resources := by
    obtain ⟨r, current | ⟨write, member, found⟩, listed⟩ := ever
    · exact ⟨r, current, listed⟩
    · obtain ⟨now, current, included⟩ := kept.grown write member id r found
      exact ⟨now, current, included listed⟩
  refine ⟨present, ?_, ?_, kept.kept, fun thread stored ended => safe.result ended⟩
  · intro id reference other ever ever' kind same
    obtain ⟨now, current, listed⟩ := present id reference ever
    obtain ⟨now', current', listed'⟩ := present id other ever'
    rw [current] at current'
    cases current'
    obtain ⟨_, canonical⟩ := kept.wellFormed.canonical current
    exact canonical.identity reference listed other listed' kind same
  · intro id r current
    obtain ⟨_, canonical⟩ := kept.wellFormed.canonical current
    exact canonical.bound

/-! A record with a disk; a save that forgets the disk, and one that adds an interface. -/

def disk : ResourceReference := { kind := "disk", id := "vol-1", uid := "1" }

def interface : ResourceReference := { kind := "interface", id := "eni-1" }

def carried (thread : Nat) : List ResourceReference :=
  if thread = 0 then [disk] else if thread = 1 then [interface] else [interface, disk, interface]

theorem smallRecord_apart : smallRecord.id ≠ fleetName "pool" := by decide

def forgetful : Saves where
  name := "pool"
  calls := fun thread => ({ smallRecord with resources := carried thread }, if thread = 0 then 0 else 1)
  apart := fun _ => smallRecord_apart

def answers (thread : Nat) : Script forgetful.rules thread where
  now := fun _ => 0
  shown := fun _ => trivial
  removes := fun _ _ => false
  removable := fun _ _ _ => trivial
  reply := fun request _ => silence request
  next := fun _ w => w.history
  outside := fun _ _ => rfl

def forgetfulRun : System Api (World (List Write)) (Except GoError Allocation) where
  world := System.playAll (fun thread => (answers thread).answer)
    ([0, 1, 2].map fun thread =>
      (thread, 9, (⟨forgetful.name⟩ : Kubernetes).save (forgetful.calls thread).1 (forgetful.calls thread).2))
    { history := [] }
  threads := fun _ => none

theorem forgetfulRun_run : forgetful.Run forgetfulRun := by
  refine System.Reachable.playAll (fun thread => (answers thread).honest) _ (fun turn member => ?_)
    (.initial _ ⟨fun key cm found => ?_, rfl⟩)
  · obtain ⟨_, _, rfl⟩ := List.mem_map.mp member
    rfl
  · simp at found

theorem obligations_kept_forgetfulRun :
    (forgetfulRun.world.record "runner-1").map Allocation.resources = some [disk, interface] ∧
      forgetfulRun.world.history.map Write.thread = [2, 0] ∧
      ∀ reference other, Ever forgetfulRun.world "runner-1" reference → Ever forgetfulRun.world "runner-1" other →
        reference.kind = other.kind → reference.id = other.id → reference.uid = other.uid :=
  ⟨by decide +kernel, by decide +kernel, (obligations_kept forgetfulRun_run).2.1 "runner-1"⟩

end Saves

end RunnerScout.State
