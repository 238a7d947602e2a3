import Mathlib.Logic.Relation
import RunnerScout.State.Cluster
import RunnerScout.Operator.Retry

/-! # What the retry passes amount to

The passes over interrupted allocations as a machine of their own.  Its state is the
history of what they did and were told, with the two maps as they are stored, and
where the pass under way stands: the maps as it holds them in memory, and the
allocations it has still to look at.  What a pass holds in memory is lost when its
process dies; the history is not.

`Conditions` are what a result may ask of a run: what GitHub may answer, and which runs
have no more than one interrupted allocation at a time.  When passes start is read off
the history (`Heeds`).
-/

namespace RunnerScout.Reruns

open Lifecycle Operator Recovery RunnerScout.State

variable {c : Conditions} {name : String} {s : State}

/-! ## The two maps -/

/-- What the fleet keeps about reruns. -/
structure Book where
  used : GoMap Int Int := ∅
  reruns : GoMap Int PendingRerun := ∅

namespace Book

variable (b : Book) (run : Int)

def count : Int := (b.used.lookup run).getD 0

/-- The unresolved request of a run. -/
def marker : Option PendingRerun := b.reruns.lookup run

def settle (attempt : Int) : Book := ⟨b.used.insert run attempt, b.reruns.erase run⟩

def clear : Book := ⟨b.used, b.reruns.erase run⟩

def park (pr : PendingRerun) : Book := ⟨b.used, b.reruns.insert run pr⟩

def accept (attempt : Int) : Book := ⟨b.used.insert run attempt, b.reruns⟩

/-- The maps after an unresolved request was looked at. -/
def resolve (outcome : RerunOutcome) (resolved : PendingRerun) : Book :=
  match outcome with
  | .confirmedHappened => b.settle run resolved.attempt
  | .confirmedDidNotHappen => b.clear run
  | .stillAmbiguous => b.park run resolved

/-- The maps after a request for the next attempt. -/
def request (jobID : Int) (reply : Option GoError) : Book :=
  match reply with
  | none => b.accept run (b.count run + 1)
  | some e => if errorIs (some e) .rerunRejected then b else b.park run { attempt := b.count run + 1, jobID := jobID }

end Book

section Lookups

variable {b : Book} {run other attempt : Int} {pr : PendingRerun}

@[simp] theorem count_settle : (b.settle run attempt).count run = attempt := by simp [Book.count, Book.settle]

theorem count_settle_ne (different : other ≠ run) : (b.settle run attempt).count other = b.count other := by
  simp [Book.count, Book.settle, AList.lookup_insert_ne different]

@[simp] theorem count_park : (b.park run pr).count other = b.count other := rfl

@[simp] theorem count_accept : (b.accept run attempt).count run = attempt := by simp [Book.count, Book.accept]

theorem count_accept_ne (different : other ≠ run) : (b.accept run attempt).count other = b.count other := by
  simp [Book.count, Book.accept, AList.lookup_insert_ne different]

@[simp] theorem marker_settle : (b.settle run attempt).marker run = none := by simp [Book.marker, Book.settle]

theorem marker_settle_ne (different : other ≠ run) : (b.settle run attempt).marker other = b.marker other := by
  simp [Book.marker, Book.settle, AList.lookup_erase_ne different]

@[simp] theorem marker_clear : (b.clear run).marker run = none := by simp [Book.marker, Book.clear]

theorem marker_clear_ne (different : other ≠ run) : (b.clear run).marker other = b.marker other := by
  simp [Book.marker, Book.clear, AList.lookup_erase_ne different]

@[simp] theorem marker_park : (b.park run pr).marker run = some pr := by simp [Book.marker, Book.park]

theorem marker_park_ne (different : other ≠ run) : (b.park run pr).marker other = b.marker other := by
  simp [Book.marker, Book.park, AList.lookup_insert_ne different]

@[simp] theorem marker_accept : (b.accept run attempt).marker other = b.marker other := rfl

end Lookups

/-- The part of a fleet the passes change. -/
def book (f : Fleet) : Book := ⟨f.retriesUsedByRun, f.pendingReruns⟩

theorem count_book (f : Fleet) (run : Int) : (book f).count run = f.retriesUsed run := rfl

/-! ## The history -/

inductive Event where
  | started
  | read (run attempt : Int) (reply : Except GoError (List RESTJob))
  | classified (run attempt : Int) (outcome : RerunOutcome)
  | posted (id : String) (run attempt : Int) (err : Option GoError)
  /-- The fleet was replaced. -/
  | saved (before after : Maps)
  /-- Any other write. -/
  | recorded (before after : Maps)

/-- The history of the passes, the latest event first, and GitHub's side of it: the
    requests it accepted, those that landed though their answer was lost, and those
    that may still land. -/
structure Log where
  stored : Book := {}
  events : List Event := []
  /-- The request that was announced last: on behalf of whom, for which run and attempt. -/
  asking : String × Int × Int := ("", 0, 0)
  accepted : List (Int × Int) := []
  late : List (Int × Int) := []
  outstanding : List (Int × Int) := []

/-- GitHub says that the attempt does not exist. -/
def notFound (reply : Except GoError (List RESTJob)) : Bool :=
  match reply with
  | .error e => errorIs (some e) .attemptNotFound
  | .ok _ => false

namespace Log

variable (log : Log)

def add (event : Event) : Log := { log with events := event :: log.events }

/-- An answer that an attempt does not exist also says that the request for it will not land. -/
def read (run attempt : Int) (reply : Except GoError (List RESTJob)) : Log :=
  { log with
    events := .read run attempt reply :: log.events
    outstanding :=
      if notFound reply then log.outstanding.filter fun x => x ≠ (run, attempt - 1) else log.outstanding }

/-- The announced request is made. -/
def post (run : Int) (reply : Option GoError) : Log :=
  let attempt := log.asking.2.2
  { log with
    events := .posted log.asking.1 run attempt reply :: log.events
    accepted := if reply.isNone then (run, attempt) :: log.accepted else log.accepted
    outstanding :=
      if reply.isSome && !errorIs reply .rerunRejected then (run, attempt) :: log.outstanding else log.outstanding }

/-- A request that was still under way lands. -/
def land (run attempt : Int) : Log :=
  { log with late := (run, attempt) :: log.late, outstanding := log.outstanding.erase (run, attempt) }

/-- The reruns that landed. -/
def landed : List (Int × Int) := log.late ++ log.accepted

/-- What a write to the cluster leaves in the history. -/
def wrote (name : String) (before after : Maps) : Log :=
  match before.lookup (fleetName name), after.lookup (fleetName name) with
  | some old, some new =>
    if old.resourceVersion = new.resourceVersion then log.add (.recorded before after)
    else { log.add (.saved before after) with stored := book (after.fleet name) }
  | _, _ => log.add (.recorded before after)

end Log

/-- The write marks the allocation as processed. -/
def Event.marks (e : Event) (id : String) : Prop :=
  ∃ before after, (e = .saved before after ∨ e = .recorded before after) ∧
    (∃ r, after.record id = some r ∧ r.retryProcessed = true) ∧
    ∀ r, before.record id = some r → r.retryProcessed = false

def Marked (events : List Event) (id : String) : Prop := ∃ e ∈ events, e.marks id

/-- What GitHub's answer about the next attempt says of an unresolved request; nothing
    when that attempt does not exist. -/
def answeredNext (pr : PendingRerun) : Except GoError (List RESTJob) → Option (RerunOutcome × PendingRerun)
  | .ok jobs => some (if jobs.length > 0 then .confirmedHappened else .stillAmbiguous, pr)
  | .error e => if errorIs (some e) .attemptNotFound then none else some (.stillAmbiguous, pr)

/-- What the answer about the attempt itself adds, when there is no next one. -/
def answeredOwn (pr : PendingRerun) : Except GoError (List RESTJob) → RerunOutcome × PendingRerun
  | .error _ => (.stillAmbiguous, pr)
  | .ok jobs =>
    if jobs.any fun j => j.id = pr.jobID && j.failed then
      (if pr.notFoundPolls + 1 ≥ rerunReconciliationPolls then .confirmedDidNotHappen else .stillAmbiguous,
        { pr with notFoundPolls := pr.notFoundPolls + 1 })
    else (.stillAmbiguous, { pr with notFoundPolls := 0 })

theorem answeredNext_spec {pr resolved : PendingRerun} {reply : Except GoError (List RESTJob)} {outcome : RerunOutcome}
    (answered : answeredNext pr reply = some (outcome, resolved)) :
    resolved = pr ∧ outcome ≠ .confirmedDidNotHappen := by
  cases reply with
  | ok jobs =>
    obtain ⟨rfl, rfl⟩ := Prod.mk.inj (Option.some.inj answered)
    refine ⟨rfl, ?_⟩
    split <;> simp
  | error e =>
    simp only [answeredNext] at answered
    split at answered
    · cases answered
    · obtain ⟨rfl, rfl⟩ := Prod.mk.inj (Option.some.inj answered)
      exact ⟨rfl, by simp⟩

theorem answeredNext_none {pr : PendingRerun} {reply : Except GoError (List RESTJob)} :
    answeredNext pr reply = none ↔ notFound reply = true := by
  cases reply with
  | ok jobs => simp [answeredNext, notFound]
  | error e => by_cases missing : errorIs (some e) .attemptNotFound = true <;> simp [answeredNext, notFound, missing]

theorem answeredOwn_attempt (pr : PendingRerun) (reply : Except GoError (List RESTJob)) :
    (answeredOwn pr reply).2.attempt = pr.attempt := by
  cases reply with
  | error e => rfl
  | ok jobs =>
    simp only [answeredOwn]
    split <;> rfl

/-! ## The machine -/

/-- What a result asks of a run. -/
structure Conditions where
  /-- GitHub may answer so. -/
  answers : Log → Int → Int → Except GoError (List RESTJob) → Prop := fun _ _ _ _ => True
  /-- No two interrupted allocations share the run. -/
  single : Int → Prop := fun _ => False
  /-- The limits of the policies the passes run under. -/
  limits : Int → Prop := fun _ => True

/-- How far the pass has come with the first allocation to do: its unresolved request,
    if there is one, has yet to be looked at; GitHub has been asked about it, with or
    without a conclusion so far; it has been looked at. -/
inductive Turn where
  | fresh
  | reading (conclusion : Option (RerunOutcome × PendingRerun))
  | looked

/-- Where the pass under way stands. -/
inductive Stage where
  | idle
  | listing
  | running (book : Book) (todo : List (String × Int)) (turn : Turn)

structure State where
  stage : Stage := .idle
  log : Log := {}

def Stage.todo : Stage → List (String × Int)
  | .running _ todo _ => todo
  | _ => []

/-- Where a pass writes records: while it reads the fleet, and between two turns. -/
def Stage.Writes : Stage → Prop
  | .listing | .running _ _ .fresh => True
  | _ => False

inductive Step (c : Conditions) (name : String) : State → State → Prop where
  | start {stage : Stage} {log : Log} : Step c name ⟨stage, log⟩ ⟨.listing, log.add .started⟩
  | crash {stage : Stage} {log : Log} : Step c name ⟨stage, log⟩ ⟨.idle, log⟩
  | load {log : Log} {todo : List (String × Int)} (nodup : (todo.map Prod.fst).Nodup)
      (unmarked : ∀ turn ∈ todo, ¬ Marked log.events turn.1)
      (single : ∀ run, c.single run → (todo.map Prod.snd).count run ≤ 1) :
      Step c name ⟨.listing, log⟩ ⟨.running log.stored todo .fresh, log⟩
  | record {stage : Stage} {log : Log} {before after : Maps} (writes : stage.Writes)
      (others : ∀ turn ∈ stage.todo, ¬ (Event.recorded before after).marks turn.1) :
      Step c name ⟨stage, log⟩ ⟨stage, log.add (.recorded before after)⟩
  | announce {stage : Stage} {log : Log} (asking : String × Int × Int) :
      Step c name ⟨stage, log⟩ ⟨stage, { log with asking := asking }⟩
  | readNext {b : Book} {id : String} {run : Int} {todo : List (String × Int)} {log : Log} {pr : PendingRerun}
      {reply : Except GoError (List RESTJob)} (marker : b.marker run = some pr)
      (allowed : c.answers log run (pr.attempt + 1) reply) :
      Step c name ⟨.running b ((id, run) :: todo) .fresh, log⟩
        ⟨.running b ((id, run) :: todo) (.reading (answeredNext pr reply)), log.read run (pr.attempt + 1) reply⟩
  | readOwn {b : Book} {id : String} {run : Int} {todo : List (String × Int)} {log : Log} {pr : PendingRerun}
      {reply : Except GoError (List RESTJob)} (marker : b.marker run = some pr)
      (allowed : c.answers log run pr.attempt reply) :
      Step c name ⟨.running b ((id, run) :: todo) (.reading none), log⟩
        ⟨.running b ((id, run) :: todo) (.reading (some (answeredOwn pr reply))), log.read run pr.attempt reply⟩
  /-- A request that happened ends the turn of the allocation. -/
  | classify {b : Book} {id : String} {run : Int} {todo : List (String × Int)} {log : Log} {pr resolved : PendingRerun}
      {outcome : RerunOutcome} (marker : b.marker run = some pr) :
      Step c name ⟨.running b ((id, run) :: todo) (.reading (some (outcome, resolved))), log⟩
        ⟨if outcome = .confirmedHappened then .running (b.resolve run outcome resolved) todo .fresh
          else .running (b.resolve run outcome resolved) ((id, run) :: todo) .looked,
          log.add (.classified run pr.attempt outcome)⟩
  | unmarked {b : Book} {id : String} {run : Int} {todo : List (String × Int)} {log : Log} (none : b.marker run = none) :
      Step c name ⟨.running b ((id, run) :: todo) .fresh, log⟩ ⟨.running b ((id, run) :: todo) .looked, log⟩
  | evaluate {b : Book} {id : String} {run : Int} {todo : List (String × Int)} {log : Log}
      {reply : Except GoError (List RESTJob)} (allowed : c.answers log run (b.count run + 1) reply) :
      Step c name ⟨.running b ((id, run) :: todo) .looked, log⟩
        ⟨.running b ((id, run) :: todo) .looked, log.read run (b.count run + 1) reply⟩
  | skip {b : Book} {first : String × Int} {todo : List (String × Int)} {log : Log} :
      Step c name ⟨.running b (first :: todo) .looked, log⟩ ⟨.running b todo .fresh, log⟩
  | post {b : Book} {id : String} {run limit : Int} {todo : List (String × Int)} {log : Log} (jobID : Int)
      (reply : Option GoError) (asking : log.asking = (id, run, b.count run + 1)) (none : b.marker run = none)
      (counted : 0 ≤ b.count run ∧ b.count run < limit) (limits : c.limits limit) :
      Step c name ⟨.running b ((id, run) :: todo) .looked, log⟩
        ⟨.running (b.request run jobID reply) todo .fresh, log.post run reply⟩
  | save {b : Book} {log : Log} {before after : Maps} (former : book (before.fleet name) = log.stored)
      (latter : book (after.fleet name) = b) (quiet : ∀ id, ¬ (Event.saved before after).marks id) :
      Step c name ⟨.running b [] .fresh, log⟩ ⟨.idle, { log.add (.saved before after) with stored := b }⟩
  | land {stage : Stage} {log : Log} {run attempt : Int} (outstanding : (run, attempt) ∈ log.outstanding) :
      Step c name ⟨stage, log⟩ ⟨stage, log.land run attempt⟩

abbrev Reachable (c : Conditions) (name : String) (s : State) : Prop := Relation.ReflTransGen (Step c name) {} s

/-- What holds at the start and is kept by every step holds throughout. -/
theorem Reachable.invariant {holds : State → Prop} (base : holds {})
    (kept : ∀ s after, holds s → Step c name s after → holds after) (reachable : Reachable c name s) :
    holds s := by
  induction reachable with
  | refl => exact base
  | tail _ step ih => exact kept _ _ ih step

/-- The history only grows. -/
theorem Step.extends {after : State} (step : Step c name s after) :
    ∃ new, after.log.events = new ++ s.log.events := by
  cases step with
  | crash | load | announce | unmarked | skip | land => exact ⟨[], rfl⟩
  | start | record | readNext | readOwn | classify | evaluate | post | save => exact ⟨[_], rfl⟩

/-- Whenever a pass started, what had happened before met the condition. -/
def Heeds (condition : List Event → Bool) : List Event → Bool
  | [] => true
  | .started :: older => condition older && Heeds condition older
  | _ :: older => Heeds condition older

theorem heeds_append {condition : List Event → Bool} {new events : List Event}
    (heeds : Heeds condition (new ++ events) = true) : Heeds condition events = true := by
  induction new with
  | nil => exact heeds
  | cons e new ih =>
    cases e with
    | started => exact ih (Bool.and_elim_right heeds)
    | read | classified | posted | saved | recorded => exact ih heeds

/-- As `Reachable.invariant`, for runs whose passes all start under a condition. -/
theorem Reachable.invariant_of_heeds {condition : List Event → Bool} {holds : State → Prop} (base : holds {})
    (kept : ∀ s after, holds s → Heeds condition after.log.events = true → Step c name s after → holds after)
    (reachable : Reachable c name s) (heeds : Heeds condition s.log.events = true) : holds s := by
  have conditional : ∀ s after, (Heeds condition s.log.events = true → holds s) → Step c name s after →
      Heeds condition after.log.events = true → holds after := by
    intro s after held step heeds
    obtain ⟨new, grown⟩ := step.extends
    exact kept s after (held (heeds_append (grown ▸ heeds))) heeds step
  exact Reachable.invariant (fun _ => base) conditional reachable heeds

/-- Since the last pass began, its own save came after every request that was not rejected. -/
def finished : List Event → Bool
  | [] | .started :: _ | .saved _ _ :: _ => true
  | .posted _ _ _ err :: older => errorIs err .rerunRejected && finished older
  | _ :: older => finished older

/-- A pass that has not come to its turns has asked for nothing. -/
theorem finished_listing (reachable : Reachable c name s) (listing : s.stage = .listing) :
    finished s.log.events = true := by
  induction reachable with
  | refl => rfl
  | tail _ step ih =>
    cases step with
    | start => rfl
    | record | announce | land => exact ih listing
    | classify => split at listing <;> cases listing
    | crash | load | readNext | readOwn | unmarked | evaluate | skip | post | save => cases listing

theorem Reachable.step {after : State} (reachable : Reachable c name s) (step : Step c name s after) :
    Reachable c name after := reachable.tail step

end RunnerScout.Reruns
