import RunnerScout.Capacity.Books
import RunnerScout.State.Cycle

/-! # The log of a scale set

Everything the calls of a scale set do, the latest first: the instants they read,
the interruptions they poll, what they ask of providers and of GitHub, and every
write that was applied.  A log is a `Chronicle` when every entry in it has its
reason: a write is one of the few a call may make, and a create call is made for a
record that was examined first.

What a run keeps besides (`Kept`) is what the calls read back from the cluster.
-/

namespace RunnerScout.Ticks

open Interaction Lifecycle Placement Operator State
open Capacity (Call Outcome)

/-! ## Events -/

inductive Event where
  | shown (thread : Nat) (now : Time)
  /-- The instant by which a cycle examines an allocation. -/
  | examined (thread : Nat) (id : String) (now : Time)
  | polled (thread : Nat) (reply : Except GoError (List Interruption))
  /-- A call of `Step` to a provider, with the interruptions its adapter held. -/
  | asked (thread : Nat) (interruptions : GoMap String Bool) (request : Request) (reply : Reply request)
  /-- The bootstrap inside a create call registered a runner. -/
  | registered (id : String)
  | deregistered (thread : Nat) (id : String) (reply : Option GoError)
  | wrote (thread : Nat) (before after : Maps)

abbrev Log := List Event

/-- The record a request creates the resource of. -/
def created : Request → Option Allocation
  | .create _ a | .createWithResources _ a => some a
  | _ => none

/-- Who calls what, and with whom; `answers` is what the providers of a thread may answer. -/
structure Crew where
  name : String
  calls : Nat → Call
  named : ∀ thread, (calls thread).operator.config.name = name
  together : Nat → Nat → Prop
  distinct : ∀ thread, ¬ together thread thread
  answers : Nat → GoMap String Bool → (request : Request) → Reply request → Prop

/-- Calls outside the cluster are logged as they are answered. -/
def Crew.outside (crew : Crew) (thread : Nat) (log : Log) : (request : ApiRequest) → ApiReply request → Log → Prop
  | .pollInterruptions, reply, after => after = .polled thread reply :: log
  | .provider interruptions request, reply, after =>
    crew.answers thread interruptions request reply ∧
      (after = .asked thread interruptions request reply :: log ∨
        ∃ a, created request = some a ∧
          after = .registered a.id :: .asked thread interruptions request reply :: log)
  | .deregisterRunner id, reply, after => after = .deregistered thread id reply :: log
  | .note (.examined id now), _, after => after = .examined thread id now :: log
  | _, _, after => after = log

def Crew.rules (crew : Crew) : Rules Log where
  name := crew.name
  clock := fun _ _ => True
  shown := fun thread now log => .shown thread now :: log
  removable := fun _ _ => True
  wrote := fun thread before after log => .wrote thread before after :: log
  outside := crew.outside

def Crew.Serial (crew : Crew) : Prop := ∀ thread other, ¬ crew.together thread other

abbrev Site := World Log

/-! ## What the log says -/

/-- The maps a log leaves behind. -/
def mapsAt (first : Maps) : Log → Maps
  | [] => first
  | .wrote _ _ after :: _ => after
  | .shown _ _ :: log | .examined _ _ _ :: log | .polled _ _ :: log | .asked _ _ _ _ :: log | .registered _ :: log
  | .deregistered _ _ _ :: log => mapsAt first log

/-- The latest poll of a thread. -/
def lastPolled (thread : Nat) : Log → Option (Except GoError (List Interruption))
  | [] => none
  | .polled poller reply :: log => if poller = thread then some reply else lastPolled thread log
  | .shown _ _ :: log | .examined _ _ _ :: log | .asked _ _ _ _ :: log | .registered _ :: log
  | .deregistered _ _ _ :: log | .wrote _ _ _ :: log => lastPolled thread log

/-- What a cycle makes of the messages it polled. -/
def interruptionsOf (results : List Interruption) : GoMap String Bool :=
  results.foldl
    (fun m r =>
      if r.err.isSome || r.resourceID = "" then m
      else m.insert r.resourceID ((m.lookup r.resourceID).getD false || r.preempted))
    ∅

/-- The interruptions a cycle holds: what it makes of its own poll, if it made one that
    succeeded. -/
inductive Polled (crew : Crew) (log : Log) (thread : Nat) : GoMap String Bool → Prop where
  | off (unset : (crew.calls thread).operator.azureInterruptions = false) : Polled crew log thread ∅
  | failed {e : GoError} (last : lastPolled thread log = some (.error e)) : Polled crew log thread ∅
  | read {results : List Interruption} (last : lastPolled thread log = some (.ok results)) :
      Polled crew log thread (interruptionsOf results)

/-- The thread saved the fleet. -/
def SavedFleet (name : String) (thread : Nat) : Event → Prop
  | .wrote writer before after => writer = thread ∧ after.lookup (fleetName name) ≠ before.lookup (fleetName name)
  | _ => False

/-- An entry made since a thread last saved the fleet. -/
def Since (name : String) (thread : Nat) (log : Log) (entry : Event) : Prop :=
  ∃ recent earlier, log = recent ++ earlier ∧ entry ∈ recent ∧ ∀ event ∈ recent, ¬ SavedFleet name thread event

/-- A thread has read an instant since it last saved the fleet, to examine an allocation by it. -/
def ReadSince (name : String) (thread : Nat) (log : Log) (id : String) (now : Time) : Prop :=
  Since name thread log (.shown thread now) ∧ Since name thread log (.examined thread id now)

/-- The runner was deregistered, and not registered again since. -/
def Cleared (log : Log) (id : String) : Prop :=
  ∃ recent thread earlier, log = recent ++ .deregistered thread id none :: earlier ∧ .registered id ∉ recent

/-! ## Reasons -/

/-- What a cycle that runs alone found out about a record before it stepped it: one that
    is not retired was within its lifetime, by the instant it was examined by after the
    cycle saved the fleet, and the process is not draining. -/
def Examined (crew : Crew) (maps : Maps) (log : Log) (thread : Nat) (r : Allocation) : Prop :=
  crew.Serial → ∀ o, crew.calls thread = .tick o → r.retire = false →
    o.draining = false ∧ ∃ stamp now, (maps.fleet crew.name).created.lookup r.id = some stamp ∧
      ReadSince crew.name thread log r.id now ∧ now < stamp + o.config.maxLifetimeSeconds * second

/-- A record on its way to a create call. -/
inductive Commits (crew : Crew) (maps : Maps) (log : Log) (thread : Nat) (a : Allocation) : Prop where
  | intro {c : Controller} {now : Time} {o : Offering} {r : Allocation} (pending : r.phase = .pending)
      (waits : r.givesUp now = false) (chosen : choose now r.requirements r.catalog (c.outcomes now r) = .ok o)
      (saved : Saved (r.commit o) a) (shown : .shown thread now ∈ log) (examined : Examined crew maps log thread r)

/-- Two versions of a record that name the same resource. -/
structure Kin (a later : Allocation) : Prop where
  id : later.id = a.id
  phase : later.phase = a.phase
  offering : later.offering = a.offering
  resourceID : later.resourceID = a.resourceID
  retire : later.retire = a.retire

/-- What a provider was asked about a record.  The record may have been saved since, but
    on a confirmed absence only its references and its condition differ until it is
    released.  A running record is not observed once it is retired. -/
inductive Observed (log : Log) (thread : Nat) (interruptions : GoMap String Bool) (a : Allocation) (ob : Observation)
    (e : Option GoError) : Prop where
  | observe {asked : Allocation}
      (kept : asked.phase = .running → asked.retire = false)
      (kin : ob.absent e → a.phase.terminal = false → Kin asked a)
      (event : .asked thread interruptions (.observe asked.offering.provider asked) (ob, e) ∈ log)
  | reconcile {asked : Allocation} (creating : asked.phase = .creating)
      (kin : ob.absent e → a.phase.terminal = false → Kin asked a)
      (event : .asked thread interruptions (.reconcileCreation asked.offering.provider asked) (ob, e) ∈ log)

/-- The events a view of `Step` rests on. -/
def Backed (crew : Crew) (maps : Maps) (log : Log) (thread : Nat) (interruptions : GoMap String Bool) : View → Prop
  | .start | .created _ _ _ _ _ | .closed => True
  | .loaded a => Examined crew maps log thread a
  | .deciding now a _ => .shown thread now ∈ log ∧ Examined crew maps log thread a
  | .committed _ _ a => Commits crew maps log thread a
  | .observed _ a ob e _ => Observed log thread interruptions a ob e

/-- Why the record of an allocation is replaced. -/
inductive Replaced (crew : Crew) (maps : Maps) (log : Log) (thread : Nat) :
    Option Allocation → Option Allocation → Prop where
  | recorded {stored : Allocation} (pending : stored.phase = .pending) (fresh : stored.condition = "") :
      Replaced crew maps log thread none (some stored)
  | edited {r x stored : Allocation} (edit : Edit r x ∨ x = r ∨ x = { r with retryProcessed := true })
      (stores : Stores r x r.revision stored) : Replaced crew maps log thread (some r) (some stored)
  | stepped {c : Controller} {view : View} {r x stored : Allocation} {interruptions : GoMap String Bool}
      (writes : view.writes c x) (held : view.held = some r) (backed : Backed crew maps log thread interruptions view)
      (stores : Stores r x r.revision stored) (polled : Polled crew log thread interruptions) :
      Replaced crew maps log thread (some r) (some stored)
  | removed {r : Allocation} (cleared : crew.Serial → Cleared log r.id) : Replaced crew maps log thread (some r) none

/-- Why a write was made: to the fleet, or to one record. -/
inductive Wrote (crew : Crew) (log : Log) (thread : Nat) (before after : Maps) : Prop where
  | fleet (records : after.record = before.record)
      (draining : (crew.calls thread).operator.draining = true →
        ∀ id ∈ (after.fleet crew.name).created, id ∈ (before.fleet crew.name).created)
  | record {id : String} {new : Option Allocation} (records : after.record = Function.update before.record id new)
      (fleet : after.fleet crew.name = before.fleet crew.name)
      (reason : Replaced crew before log thread (before.record id) new)

/-- Why a call outside the cluster was made. -/
def Reason (crew : Crew) (maps : Maps) (log : Log) : Event → Prop
  | .asked thread interruptions request reply =>
    crew.answers thread interruptions request reply ∧ Polled crew log thread interruptions ∧
      ∀ a, created request = some a → Commits crew maps log thread a
  | .shown _ _ | .examined _ _ _ | .polled _ _ | .registered _ | .deregistered _ _ _ => True
  | .wrote _ _ _ => False

/-- A log, and the maps it leaves behind. -/
inductive Chronicle (crew : Crew) (first : Maps) : Log → Maps → Prop where
  | opened : Chronicle crew first [] first
  | event {log : Log} {maps : Maps} {event : Event} (chronicle : Chronicle crew first log maps)
      (reason : Reason crew maps log event) : Chronicle crew first (event :: log) maps
  | wrote {log : Log} {maps after : Maps} {thread : Nat} (chronicle : Chronicle crew first log maps)
      (reason : Wrote crew log thread maps after) : Chronicle crew first (.wrote thread maps after :: log) after

namespace Chronicle

variable {crew : Crew} {first maps : Maps} {log : Log}

theorem maps_eq (chronicle : Chronicle crew first log maps) : maps = mapsAt first log := by
  induction chronicle with
  | opened => rfl
  | @event log maps event _ reason ih =>
    cases event with
    | wrote => exact reason.elim
    | shown | examined | polled | asked | registered | deregistered => exact ih
  | wrote => rfl

/-- Every part of a chronicle is one. -/
theorem earlier {recent earlier : Log} (chronicle : Chronicle crew first (recent ++ earlier) maps) :
    Chronicle crew first earlier (mapsAt first earlier) := by
  induction recent generalizing maps with
  | nil => exact chronicle.maps_eq ▸ chronicle
  | cons event recent ih =>
    cases chronicle with
    | event chronicle reason => exact ih chronicle
    | wrote chronicle reason => exact ih chronicle

/-- A call outside the cluster has its reason. -/
theorem asked {recent earlier : Log} {thread : Nat} {interruptions : GoMap String Bool} {request : Request}
    {reply : Reply request}
    (chronicle : Chronicle crew first (recent ++ .asked thread interruptions request reply :: earlier) maps) :
    Reason crew (mapsAt first earlier) earlier (.asked thread interruptions request reply) := by
  cases chronicle.earlier with
  | event chronicle reason => exact reason

/-- A write has its reason. -/
theorem written {recent earlier : Log} {thread : Nat} {before after : Maps}
    (chronicle : Chronicle crew first (recent ++ .wrote thread before after :: earlier) maps) :
    Chronicle crew first earlier before ∧ Wrote crew earlier thread before after := by
  generalize same : Event.wrote thread before after :: earlier = log at chronicle
  cases chronicle.earlier with
  | opened => cases same
  | event chronicle reason =>
    cases same
    exact reason.elim
  | wrote until_ reason =>
    cases same
    exact ⟨until_, reason⟩

end Chronicle

/-! ## What a run keeps -/

/-- Admissions wait as they were made. -/
def FreshPending (name : String) (f : Fleet) : Prop :=
  ∀ id a, f.pending.lookup id = some a → a.id = id ∧ id ≠ fleetName name ∧ a.phase = .pending ∧ a.condition = ""

structure Kept (crew : Crew) (first : Maps) (w : Site) : Prop where
  wellFormed : WellFormed crew.name w
  chronicle : Chronicle crew first w.history w.maps
  pending : FreshPending crew.name (w.fleet crew.name)

structure Initial (crew : Crew) (first : Maps) (w : Site) : Prop where
  wellFormed : WellFormed crew.name w
  maps : w.maps = first
  history : w.history = []
  pending : FreshPending crew.name (w.fleet crew.name)

theorem Initial.kept {crew : Crew} {first : Maps} {w : Site} (initial : Initial crew first w) : Kept crew first w where
  wellFormed := initial.wellFormed
  chronicle := by
    rw [initial.history, initial.maps]
    exact .opened
  pending := initial.pending

/-- Events that a thread leaves to itself: its polls, and its saves of the fleet. -/
def Private (name : String) (thread : Nat) (event : Event) : Prop :=
  (∃ reply, event = .polled thread reply) ∨ SavedFleet name thread event

/-- Versions move forward, and events are added that this thread does not leave to itself. -/
structure Extends (name : String) (thread : Nat) (w after : Site) : Prop where
  evolves : Evolves w after
  history : ∃ recent, after.history = recent ++ w.history ∧ ∀ event ∈ recent, ¬ Private name thread event

theorem Extends.refl (name : String) (thread : Nat) (w : Site) : Extends name thread w w := ⟨.refl w, [], rfl, by simp⟩

theorem Extends.trans {name : String} {thread : Nat} {first second third : Site}
    (earlier : Extends name thread first second) (later : Extends name thread second third) :
    Extends name thread first third := by
  obtain ⟨recent, more, others⟩ := earlier.history
  obtain ⟨recent', more', others'⟩ := later.history
  refine ⟨earlier.evolves.trans later.evolves, recent' ++ recent, ?_, fun event member => ?_⟩
  · rw [more', more, List.append_assoc]
  · obtain inside | inside := List.mem_append.mp member
    · exact others' event inside
    · exact others event inside

/-- What the goroutines of a cycle leave as it is: the fleet, and a retired record. -/
structure Steady (crew : Crew) (w after : Site) : Prop where
  fleet : after.fleet crew.name = w.fleet crew.name
  records : ∀ id r, after.record id = some r → ∃ earlier, w.record id = some earlier ∧ (earlier.retire = true → r.retire = true)

theorem Steady.refl (crew : Crew) (w : Site) : Steady crew w w := ⟨rfl, fun _ r found => ⟨r, found, id⟩⟩

theorem Steady.trans {crew : Crew} {first second third : Site} (earlier : Steady crew first second)
    (later : Steady crew second third) : Steady crew first third := by
  refine ⟨later.fleet.trans earlier.fleet, fun id r found => ?_⟩
  obtain ⟨between, known, retire⟩ := later.records id r found
  obtain ⟨old, known', retire'⟩ := earlier.records id between known
  exact ⟨old, known', fun retired => retire (retire' retired)⟩

/-- A call among the calls of other processes. -/
def rely (crew : Crew) (first : Maps) : Rely Site where
  invariant := Kept crew first
  rely := fun thread w after => Extends crew.name thread w after ∧ (crew.Serial → after = w)
  together := crew.together
  refl := fun thread w => ⟨.refl crew.name thread w, fun _ => rfl⟩
  trans := fun _ _ _ _ earlier later =>
    ⟨earlier.1.trans later.1, fun serial => (later.2 serial).trans (earlier.2 serial)⟩

/-- A goroutine among the goroutines of its call and the calls of other processes. -/
def workers (crew : Crew) (first : Maps) : Rely Site where
  invariant := Kept crew first
  rely := fun thread w after => Extends crew.name thread w after ∧ (crew.Serial → Steady crew w after)
  together := fun _ _ => True
  refl := fun thread w => ⟨.refl crew.name thread w, fun _ => .refl crew w⟩
  trans := fun _ _ _ _ earlier later =>
    ⟨earlier.1.trans later.1, fun serial => (earlier.2 serial).trans (later.2 serial)⟩

section Triples

variable (crew : Crew) (first : Maps) (thread : Nat) {α : Type} (pre : Site → Prop) (program : Program Api α)
  (post : α → Site → Prop)

abbrev Crew.Triple : Prop := (rely crew first).Triple crew.rules.semantics thread pre program post

abbrev Crew.WorkerTriple : Prop := (workers crew first).Triple crew.rules.semantics thread pre program post

end Triples

section Rules

variable {crew : Crew} {first : Maps} {thread : Nat} {pre : Site → Prop}

theorem rely_respects : Respects crew.rules (rely crew first) :=
  ⟨fun _ kept => kept.wellFormed, fun _ _ _ relied => relied.1.evolves⟩

theorem workers_respects : Respects crew.rules (workers crew first) :=
  ⟨fun _ kept => kept.wellFormed, fun _ _ _ relied => relied.1.evolves⟩

theorem of_workers {α : Type} {program : Program Api α} {post : α → Site → Prop}
    (triple : crew.WorkerTriple first thread pre program post) :
    crew.Triple first thread pre program post := by
  have same (w : Site) : (rely crew first).invariant w ↔ (workers crew first).invariant w := Iff.rfl
  refine triple.weaken same ?_ ?_
  · rintro before after ⟨extends_, quiet⟩
    refine ⟨extends_, fun serial => ?_⟩
    rw [quiet serial]
    exact .refl crew before
  · intro before after promised other overlap
    exact ⟨(promised other trivial).1, fun serial => absurd overlap (serial thread other)⟩

theorem stable_of_workers (stable : (workers crew first).Stable thread pre) : (rely crew first).Stable thread pre := by
  rintro before after kept ⟨extends_, quiet⟩ holds
  refine stable before after kept ⟨extends_, fun serial => ?_⟩ holds
  rw [quiet serial]
  exact .refl crew before

/-- Whatever a call does, it promises the others no more than that the log grows. -/
theorem keeps {w after : Site} (kept : Kept crew first after)
    (extends_ : ∀ other, other ≠ thread → Extends crew.name other w after) : Keeps (rely crew first) thread w after := by
  refine ⟨kept, fun other overlap => ⟨extends_ other ?_, fun serial => absurd overlap (serial thread other)⟩⟩
  rintro rfl
  exact crew.distinct other overlap

/-! ### Entries -/

variable {w : Site}

theorem Kept.wrote {key : String} {slot : ConfigMap} {version : Revision} (kept : Kept crew first w)
    (newer : w.version < version) (genuine : Genuine crew.name key version slot)
    (reason : Wrote crew w.history thread w.maps (w.maps.insert key slot))
    (pending : FreshPending crew.name (Maps.fleet (w.maps.insert key slot) crew.name)) :
    Kept crew first (crew.rules.write thread w (w.maps.insert key slot) version) :=
  ⟨wellFormed_write kept.wellFormed newer genuine, kept.chronicle.wrote reason, pending⟩

/-- A write extends the log for every other thread, and for the writer unless it saved the fleet. -/
theorem extends_wrote {maps : Maps} {version : Revision} {other : Nat}
    (evolves : Evolves w (crew.rules.write thread w maps version))
    (foreign : other ≠ thread ∨ maps.lookup (fleetName crew.name) = w.maps.lookup (fleetName crew.name)) :
    Extends crew.name other w (crew.rules.write thread w maps version) := by
  refine ⟨evolves, [.wrote thread w.maps maps], rfl, fun event member => ?_⟩
  rw [List.mem_singleton] at member
  subst member
  rintro (⟨_, same⟩ | ⟨rfl, changed⟩)
  · cases same
  · exact foreign.elim (fun different => different rfl) changed

/-- One record is put in the place of another. -/
theorem Kept.putRecord {stored : Allocation} (kept : Kept crew first w) (notFleet : stored.id ≠ fleetName crew.name)
    (canonical : StoredRecord { stored with revision := 0 }) (newer : w.version < stored.revision)
    (reason : Replaced crew w.maps w.history thread (w.record stored.id) (some stored)) :
    Kept crew first (putRecord crew.rules thread w stored) ∧
      ∀ other, Extends crew.name other w (putRecord crew.rules thread w stored) := by
  have records := @putRecord_record stored _ crew.rules thread w canonical
  have fleet := @putRecord_fleet stored _ crew.rules thread w notFleet
  have genuine := @putRecord_genuine stored _ crew.rules notFleet canonical (Nat.ne_of_gt (Nat.zero_lt_of_lt newer))
  refine ⟨kept.wrote newer genuine (.record records fleet reason) ?_, fun other =>
    extends_wrote (evolves_write newer rfl) (.inr (AList.lookup_insert_ne (Ne.symm notFleet)))⟩
  change FreshPending crew.name ((State.putRecord crew.rules thread w stored).fleet crew.rules.name)
  rw [fleet]
  exact kept.pending

/-- A save over a record that was read. -/
theorem Kept.saved {after : Site} {x r stored : Allocation} (kept : Kept crew first w) (seen : RecordSeen r w)
    (named : x.id = r.id) (saved : RecordSaved crew.rules thread w x r.revision stored after)
    (reason : Stores r x r.revision stored → Replaced crew w.maps w.history thread (some r) (some stored)) :
    Kept crew first after ∧ (∀ other, Extends crew.name other w after) ∧ w.record r.id = some r ∧ Stores r x r.revision stored ∧
      after.record = Function.update w.record r.id (some stored) ∧ after.fleet crew.name = w.fleet crew.name := by
  obtain ⟨record, found, stores, newer, canonical, rfl⟩ := saved
  rw [named] at found
  obtain rfl : record = r := seen.2.2 record found stores.current
  have same : stored.id = record.id := stores.id_eq
  have notFleet : stored.id ≠ fleetName crew.name := same ▸ (kept.wellFormed.lookup_of_record found).1
  have here : w.record stored.id = some record := same ▸ found
  obtain ⟨kept, extends_⟩ := kept.putRecord notFleet canonical newer (here ▸ reason stores)
  refine ⟨kept, extends_, found, stores, ?_, putRecord_fleet notFleet⟩
  rw [putRecord_record canonical, same]

end Rules

end RunnerScout.Ticks
