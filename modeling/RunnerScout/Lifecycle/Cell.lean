import RunnerScout.Interaction.Concurrency
import RunnerScout.Lifecycle.StepProtocol

/-! # One allocation in a compare-and-swap store

The world of one allocation: its stored record, which any number of controllers
and other writers load and save, and whatever the results about it keep track of
besides (`ghost`).  A save replaces the record only at the revision it was read
at; it may also fail, with or without having been applied.
-/

namespace RunnerScout.Lifecycle

open Interaction Placement

/-! ## The content checks of a save -/

/-- The checks of `Kubernetes.Save` against the record it replaces: the incoming
    references in canonical order, provided none of the recorded ones is missing. -/
def incomingResources (previous a : Allocation) : Except GoError (List ResourceReference) :=
  match mergeResources [] a.resources with
  | .error e => .error e
  | .ok (incoming, _) =>
    match mergeResources previous.resources incoming with
    | .error e => .error e
    | .ok (retained, _) =>
      if retained.length ≠ incoming.length then .error (.new "cannot discard recorded cloud dependencies")
      else .ok incoming

/-- What `Kubernetes.Save` stores over a record it has read. -/
def acceptSave (previous a : Allocation) : Except GoError Allocation :=
  match incomingResources previous a with
  | .error e => .error e
  | .ok incoming =>
    match mergeResources [] incoming with
    | .error e => .error e
    | .ok (resources, _) => .ok { a with resources := resources, revision := 0 }

/-- A save applied to the current record: it was made at the record's revision, its
    content is accepted, and the store assigns a revision never used before. -/
def Stores (record x : Allocation) (revision : Revision) (after : Allocation) : Prop :=
  revision ≠ 0 ∧ record.revision = revision ∧ x.id = record.id ∧ record.revision < after.revision ∧
    ∃ accepted, acceptSave record x = .ok accepted ∧ after = { accepted with revision := after.revision }

theorem acceptSave_saved {previous a accepted : Allocation} (accepts : acceptSave previous a = .ok accepted) :
    Saved a accepted := by
  unfold acceptSave at accepts
  repeat' split at accepts
  all_goals first | cases accepts; rfl | cases accepts

theorem incomingResources_empty {previous a : Allocation} {incoming : List ResourceReference}
    (accepts : incomingResources previous a = .ok incoming) (none : a.resources = []) : incoming = [] := by
  unfold incomingResources at accepts
  rw [none, mergeResources_nil] at accepts
  dsimp only at accepts
  repeat' split at accepts
  all_goals cases accepts
  rfl

theorem acceptSave_empty {previous a accepted : Allocation} (accepts : acceptSave previous a = .ok accepted)
    (none : a.resources = []) : accepted.resources = [] := by
  unfold acceptSave at accepts
  split at accepts
  · cases accepts
  rename_i incoming checked
  rw [incomingResources_empty checked none, mergeResources_nil] at accepts
  cases accepts
  rfl

namespace Stores

variable {record x after : Allocation} {revision : Revision}

theorem saved (stores : Stores record x revision after) : Saved x after := by
  obtain ⟨_, _, _, _, accepted, accepts, same⟩ := stores
  have content := acceptSave_saved accepts
  rw [same, content]
  rfl

theorem newer (stores : Stores record x revision after) : record.revision < after.revision :=
  stores.2.2.2.1

theorem current (stores : Stores record x revision after) : record.revision = revision := stores.2.1

theorem id_eq (stores : Stores record x revision after) : after.id = record.id := by
  rw [stores.saved]
  exact stores.2.2.1

theorem resources_empty (stores : Stores record x revision after) (none : x.resources = []) :
    after.resources = [] := by
  obtain ⟨_, _, _, _, accepted, accepts, same⟩ := stores
  have empty := acceptSave_empty accepts none
  rw [same]
  exact empty

end Stores

/-! ## The world of one allocation -/

structure Cell (γ : Type) where
  record : Allocation
  ghost : γ

/-- What the provider calls do besides answering.  `Create` and `CreateWithResources`
    differ in the receipt only, `Observe` and `ReconcileCreation` in nothing the
    controller sees. -/
structure CloudSemantics (γ : Type) where
  create : Nat → Allocation → γ → Creation × Option GoError → γ → Prop
  observe : Nat → Allocation → γ → Observation × Option GoError → γ → Prop
  delete : Nat → Allocation → γ → Option GoError → γ → Prop

section Semantics

variable {γ : Type} (cloud : CloudSemantics γ) (onSave : Nat → Allocation → Allocation → γ → γ)

/-- What one call does; `onSave` is what an applied save leaves behind besides the record. -/
def cellSemantics : Semantics Calls (Cell γ) := fun thread w request reply after =>
  match request, reply with
  | .load id, .ok a => after = w ∧ id = w.record.id ∧ a = w.record
  | .load _, .error _ => after = w
  | .save x revision, .ok a =>
    Stores w.record x revision a ∧ after = ⟨a, onSave thread w.record a w.ghost⟩
  | .save x revision, .error _ =>
    after = w ∨ ∃ a, Stores w.record x revision a ∧ after = ⟨a, onSave thread w.record a w.ghost⟩
  | .now, _ => after = w
  | .deregisterRunner _, _ => after = w
  | .create _ a, (resourceID, e) =>
    cloud.create thread a w.ghost ({ resourceID := resourceID }, e) after.ghost ∧ after.record = w.record
  | .createWithResources _ a, reply => cloud.create thread a w.ghost reply after.ghost ∧ after.record = w.record
  | .observe _ a, reply | .reconcileCreation _ a, reply =>
    cloud.observe thread a w.ghost reply after.ghost ∧ after.record = w.record
  | .delete _ a, reply => cloud.delete thread a w.ghost reply after.ghost ∧ after.record = w.record

variable {cloud onSave}

/-- A save was applied or left no trace; only an applied one reports success. -/
theorem cell_save {thread : Nat} {w after : Cell γ} {x : Allocation} {revision : Revision}
    {reply : Except GoError Allocation}
    (executed : cellSemantics cloud onSave thread w (.save x revision) reply after) :
    (after = w ∧ ∃ e, reply = .error e) ∨
      ∃ a, Stores w.record x revision a ∧ after = ⟨a, onSave thread w.record a w.ghost⟩ ∧
        ∀ stored, reply = .ok stored → stored = a := by
  cases reply with
  | ok a => exact .inr ⟨a, executed.1, executed.2, fun stored same => by cases same; rfl⟩
  | error e =>
    obtain same | ⟨a, stores, applied⟩ := executed
    · exact .inl ⟨same, e, rfl⟩
    · exact .inr ⟨a, stores, applied, fun stored same => by cases same⟩

end Semantics

/-- What every call leaves behind besides the record: the clock and the deregistration
    of a runner as well. -/
structure Traces (γ : Type) extends CloudSemantics γ where
  now : Nat → γ → Time → γ → Prop
  deregister : Nat → Allocation → String → γ → Option GoError → γ → Prop
  save : Nat → Allocation → Allocation → γ → γ

def Traces.semantics {γ : Type} (traces : Traces γ) : Semantics Calls (Cell γ) := fun thread w request reply after =>
  match request, reply with
  | .now, now => traces.now thread w.ghost now after.ghost ∧ after.record = w.record
  | .deregisterRunner id, reply =>
    traces.deregister thread w.record id w.ghost reply after.ghost ∧ after.record = w.record
  | request, reply => cellSemantics traces.toCloudSemantics traces.save thread w request reply after

/-- The clock and deregistrations leave nothing behind. -/
def CloudSemantics.traces {γ : Type} (cloud : CloudSemantics γ) (onSave : Nat → Allocation → Allocation → γ → γ) :
    Traces γ where
  toCloudSemantics := cloud
  now := fun _ ghost _ after => after = ghost
  deregister := fun _ _ _ ghost _ after => after = ghost
  save := onSave

theorem cell_traces {γ : Type} {cloud : CloudSemantics γ} {onSave : Nat → Allocation → Allocation → γ → γ}
    {thread : Nat} {w after : Cell γ} {request : Request} {reply : Reply request}
    (executed : cellSemantics cloud onSave thread w request reply after) :
    (cloud.traces onSave).semantics thread w request reply after := by
  cases request with
  | now | deregisterRunner id =>
    cases executed
    exact ⟨rfl, rfl⟩
  | load | save | create | createWithResources | observe | reconcileCreation | delete => exact executed

/-! ## The moves of a `Step` thread

What one request of a thread running `Step` does to the cell and to the thread's
view, with everything the protocol says about the request. -/

inductive StepMove {γ : Type} (traces : Traces γ) (c : Controller) (thread : Nat) (w : Cell γ) :
    View → Cell γ → View → Prop where
  | failed {view} : StepMove traces c thread w view w .closed
  | loaded : StepMove traces c thread w .start w (.loaded w.record)
  | clock {now a ghost} (shows : traces.now thread w.ghost now ghost) :
      StepMove traces c thread w (.loaded a) ⟨w.record, ghost⟩ (.deciding now a false)
  | cleared {now a ghost} (deregister : traces.deregister thread w.record a.id w.ghost none ghost) :
      StepMove traces c thread w (.deciding now a false) ⟨w.record, ghost⟩ (.deciding now a true)
  | clearedAbsent {now a ob e ghost} (absent : ob.absent e)
      (deregister : traces.deregister thread w.record a.id w.ghost none ghost) :
      StepMove traces c thread w (.observed now a ob e false) ⟨w.record, ghost⟩ (.observed now a ob e true)
  | uncleared {view id err ghost} (deregister : traces.deregister thread w.record id w.ghost (some err) ghost) :
      StepMove traces c thread w view ⟨w.record, ghost⟩ .closed
  | saved {view x held a} (writes : view.writes c x) (holding : view.held = some held)
      (stores : Stores w.record x held.revision a) :
      StepMove traces c thread w view ⟨a, traces.save thread w.record a w.ghost⟩
        (view.next (.save x held.revision) (.ok a))
  | savedUnheard {view x held a} (writes : view.writes c x) (holding : view.held = some held)
      (stores : Stores w.record x held.revision a) :
      StepMove traces c thread w view ⟨a, traces.save thread w.record a w.ghost⟩ .closed
  | created {now o a creation e ghost} (create : traces.create thread a w.ghost (creation, e) ghost) :
      StepMove traces c thread w (.committed now o a) ⟨w.record, ghost⟩ (.created now o a creation e)
  | observed {now a ob e ghost} (phase : a.phase = .creating ∨ a.phase = .running ∨ a.phase = .deleting)
      (observe : traces.observe thread a w.ghost (ob, e) ghost) :
      StepMove traces c thread w (.deciding now a false) ⟨w.record, ghost⟩ (.observed now a ob e false)
  | deleted {now a ob e ghost} (delete : traces.delete thread a w.ghost none ghost) :
      StepMove traces c thread w (.observed now a ob e false) ⟨w.record, ghost⟩ .closed
  | undeleted {now a ob e err ghost} (delete : traces.delete thread a w.ghost (some err) ghost) :
      StepMove traces c thread w (.observed now a ob e false) ⟨w.record, ghost⟩ (.observed now a ob e false)

theorem step_move {γ : Type} {traces : Traces γ} {c : Controller} {thread : Nat} {w after : Cell γ} {view : View}
    {request : Request} {reply : Reply request} (allowed : view.allowed c request)
    (executed : traces.semantics thread w request reply after) :
    View.answers request reply ∧ StepMove traces c thread w view after (view.next request reply) := by
  obtain ⟨record, ghost⟩ := after
  cases request with
  | load id =>
    cases allowed
    cases reply with
    | error e =>
      cases executed
      exact ⟨trivial, .failed⟩
    | ok a =>
      obtain ⟨same, _, rfl⟩ := executed
      cases same
      exact ⟨trivial, .loaded⟩
  | now =>
    obtain ⟨a, rfl⟩ := allowed
    obtain ⟨shows, same⟩ := executed
    cases same
    exact ⟨trivial, .clock shows⟩
  | save x revision =>
    obtain ⟨writes, held, holding, rfl⟩ := allowed
    obtain ⟨same, e, rfl⟩ | ⟨a, stores, same, reported⟩ := cell_save executed
    · cases same
      exact ⟨trivial, .failed⟩
    · cases same
      cases reply with
      | ok stored =>
        obtain rfl := reported stored rfl
        exact ⟨stores.saved, .saved writes holding stores⟩
      | error e => exact ⟨trivial, .savedUnheard writes holding stores⟩
  | create provider a | createWithResources provider a =>
    obtain ⟨now, o, rfl, _⟩ := allowed
    obtain ⟨create, same⟩ := executed
    cases same
    exact ⟨trivial, .created create⟩
  | observe provider a =>
    obtain ⟨now, rfl, _, phase⟩ := allowed
    obtain ⟨observe, same⟩ := executed
    cases same
    exact ⟨trivial, .observed (phase.imp_right (Or.imp_left And.left)) observe⟩
  | reconcileCreation provider a =>
    obtain ⟨now, rfl, _, phase⟩ := allowed
    obtain ⟨observe, same⟩ := executed
    cases same
    exact ⟨trivial, .observed (.inl phase) observe⟩
  | delete provider a =>
    obtain ⟨now, ob, rfl, _⟩ := allowed
    obtain ⟨delete, same⟩ := executed
    cases same
    cases reply with
    | none => exact ⟨trivial, .deleted delete⟩
    | some err => exact ⟨trivial, .undeleted delete⟩
  | deregisterRunner id =>
    obtain ⟨deregister, same⟩ := executed
    cases same
    cases reply with
    | some e => exact ⟨trivial, .uncleared deregister⟩
    | none =>
      obtain ⟨now, a, rfl, rfl, _⟩ | ⟨now, a, ob, e, rfl, rfl, absent⟩ := allowed
      · exact ⟨trivial, .cleared deregister⟩
      · exact ⟨trivial, .clearedAbsent absent deregister⟩

/-! ## Snapshots -/

/-- A record that was read at some point: it is still the stored one, or the store
    has moved past its revision. -/
def Snapshot (record a : Allocation) : Prop := a = record ∨ a.revision < record.revision

theorem Snapshot.self (record : Allocation) : Snapshot record record := .inl rfl

theorem Snapshot.of_stores {record x after : Allocation} {revision : Revision}
    (stores : Stores record x revision after) : Snapshot after record := .inr stores.newer

theorem Snapshot.trans {first second third : Allocation} (later : Snapshot third second)
    (earlier : Snapshot second first) : Snapshot third first := by
  obtain rfl | newer := earlier
  · exact later
  · obtain rfl | newest := later
    · exact .inr newer
    · exact .inr (Nat.lt_trans newer newest)

/-- A save made at the revision of a snapshot is applied to that very record. -/
theorem Snapshot.applied {record a x after : Allocation} (snapshot : Snapshot record a)
    (stores : Stores record x a.revision after) : a = record := by
  obtain same | newer := snapshot
  · exact same
  · exact absurd stores.current (Nat.ne_of_gt newer)

/-! ## A world that cooperates

For exhibiting runs: every save that can be applied is, the clock stands at `now`,
and the providers are functions. -/

structure CloudOracle (γ : Type) where
  create : Nat → Allocation → γ → (Creation × Option GoError) × γ
  observe : Nat → Allocation → γ → (Observation × Option GoError) × γ
  delete : Nat → Allocation → γ → Option GoError × γ

/-- An oracle that answers as the cloud may.  The receipt of `Create` is a name only. -/
structure CloudOracle.Honest {γ : Type} (oracle : CloudOracle γ) (cloud : CloudSemantics γ) : Prop where
  create : ∀ thread a ghost, cloud.create thread a ghost (oracle.create thread a ghost).1 (oracle.create thread a ghost).2
  named : ∀ thread a ghost,
    (oracle.create thread a ghost).1.1 = { resourceID := (oracle.create thread a ghost).1.1.resourceID }
  observe : ∀ thread a ghost,
    cloud.observe thread a ghost (oracle.observe thread a ghost).1 (oracle.observe thread a ghost).2
  delete : ∀ thread a ghost, cloud.delete thread a ghost (oracle.delete thread a ghost).1 (oracle.delete thread a ghost).2

section Oracle

variable {γ : Type} (now : Time) (oracle : CloudOracle γ) (onSave : Nat → Allocation → Allocation → γ → γ)
  (thread : Nat)

def cellOracle : (request : Request) → Cell γ → Reply request × Cell γ
  | .load id, w => if id = w.record.id then (.ok w.record, w) else (.error ⟨[.notFound], "not found"⟩, w)
  | .save x revision, w =>
    if revision ≠ 0 ∧ w.record.revision = revision ∧ x.id = w.record.id then
      match acceptSave w.record x with
      | .error e => (.error e, w)
      | .ok accepted =>
        let a := { accepted with revision := revision + 1 }
        (.ok a, ⟨a, onSave thread w.record a w.ghost⟩)
    else (.error errConflict, w)
  | .now, w => (now, w)
  | .deregisterRunner _, w => (none, w)
  | .create _ a, w =>
    let ((creation, e), ghost) := oracle.create thread a w.ghost
    ((creation.resourceID, e), ⟨w.record, ghost⟩)
  | .createWithResources _ a, w =>
    let (reply, ghost) := oracle.create thread a w.ghost
    (reply, ⟨w.record, ghost⟩)
  | .observe _ a, w | .reconcileCreation _ a, w =>
    let (reply, ghost) := oracle.observe thread a w.ghost
    (reply, ⟨w.record, ghost⟩)
  | .delete _ a, w =>
    let (reply, ghost) := oracle.delete thread a w.ghost
    (reply, ⟨w.record, ghost⟩)

variable {now oracle onSave thread}

theorem cellOracle_honest {cloud : CloudSemantics γ} (honest : oracle.Honest cloud)
    (request : Request) (w : Cell γ) :
    cellSemantics cloud onSave thread w request (cellOracle now oracle onSave thread request w).1
      (cellOracle now oracle onSave thread request w).2 := by
  cases request with
  | load id =>
    simp only [cellOracle]
    split
    · exact ⟨rfl, ‹_›, rfl⟩
    · exact rfl
  | save x revision =>
    simp only [cellOracle]
    split
    · rename_i current
      obtain ⟨nonzero, same, names⟩ := current
      split
      · exact .inl rfl
      · rename_i accepted accepts
        refine ⟨⟨nonzero, same, names, ?_, accepted, accepts, rfl⟩, rfl⟩
        exact same ▸ Nat.lt_succ_self _
    · exact .inl rfl
  | now => exact rfl
  | deregisterRunner id => exact rfl
  | create name a =>
    refine ⟨?_, rfl⟩
    have create := honest.create thread a w.ghost
    rw [← Prod.eta (oracle.create thread a w.ghost).1, honest.named] at create
    exact create
  | createWithResources name a => exact ⟨honest.create thread a w.ghost, rfl⟩
  | observe name a => exact ⟨honest.observe thread a w.ghost, rfl⟩
  | reconcileCreation name a => exact ⟨honest.observe thread a w.ghost, rfl⟩
  | delete name a => exact ⟨honest.delete thread a w.ghost, rfl⟩

end Oracle

/-- The same with a clock and a deregistrar of its own. -/
structure TracesOracle (γ : Type) extends CloudOracle γ where
  now : Nat → γ → Time × γ
  deregister : Nat → Allocation → String → γ → Option GoError × γ

structure TracesOracle.Honest {γ : Type} (oracle : TracesOracle γ) (traces : Traces γ) : Prop
    extends oracle.toCloudOracle.Honest traces.toCloudSemantics where
  now : ∀ thread ghost, traces.now thread ghost (oracle.now thread ghost).1 (oracle.now thread ghost).2
  deregister : ∀ thread record id ghost, traces.deregister thread record id ghost
    (oracle.deregister thread record id ghost).1 (oracle.deregister thread record id ghost).2

def tracesOracle {γ : Type} (oracle : TracesOracle γ) (onSave : Nat → Allocation → Allocation → γ → γ) (thread : Nat) :
    (request : Request) → Cell γ → Reply request × Cell γ
  | .now, w =>
    let (now, ghost) := oracle.now thread w.ghost
    (now, ⟨w.record, ghost⟩)
  | .deregisterRunner id, w =>
    let (reply, ghost) := oracle.deregister thread w.record id w.ghost
    (reply, ⟨w.record, ghost⟩)
  | request, w => cellOracle 0 oracle.toCloudOracle onSave thread request w

theorem tracesOracle_honest {γ : Type} {oracle : TracesOracle γ} {traces : Traces γ} {thread : Nat}
    (honest : oracle.Honest traces) (request : Request) (w : Cell γ) :
    traces.semantics thread w request (tracesOracle oracle traces.save thread request w).1
      (tracesOracle oracle traces.save thread request w).2 := by
  have cell := @cellOracle_honest γ 0 oracle.toCloudOracle traces.save thread _ honest.toHonest
  cases request with
  | now => exact ⟨honest.now thread w.ghost, rfl⟩
  | deregisterRunner id => exact ⟨honest.deregister thread w.record id w.ghost, rfl⟩
  | load id => exact cell (.load id) w
  | save x revision => exact cell (.save x revision) w
  | create name a => exact cell (.create name a) w
  | createWithResources name a => exact cell (.createWithResources name a) w
  | observe name a => exact cell (.observe name a) w
  | reconcileCreation name a => exact cell (.reconcileCreation name a) w
  | delete name a => exact cell (.delete name a) w

/-! ## A small configuration -/

def smallPool : Offering where
  id := "aws-a"
  provider := "aws"
  region := "us-east-1"
  zone := "us-east-1a"
  machine := "m7i.large"
  image := "ami-1"
  cpu := 2
  memoryMiB := 4096
  architecture := "amd64"
  spot := true
  priceMicros := 30000
  currency := "USD"
  observedAt := 1

/-- A pending record with one pool to choose from. -/
def smallRecord : Allocation where
  id := "runner-1"
  revision := 1
  phase := .pending
  deadline := 10 * minute
  maxAttempts := 3
  catalog := { offerings := [smallPool], complete := AList.singleton "aws" true }
  requirements :=
    { cpu := 1
      memoryMiB := 1024
      architecture := "amd64"
      providers := ["aws"]
      regions := ["us-east-1"]
      maxPriceMicros := 100000
      policy := "lowest-price" }

def smallController : Controller where
  providers := AList.singleton "aws" { resourceCreator := true, creationReconciler := true }

end RunnerScout.Lifecycle
