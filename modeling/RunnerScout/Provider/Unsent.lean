import RunnerScout.Provider.Deletion
import RunnerScout.Provider.Retry

/-! # A create that fails before anything is sent

`Step` reverts a committed record to pending when the create call reports that it had
no effect.  Any other failure leaves the record in `Creating`, to be decided by an
observation.  On Compute Engine that never happens for a request that was not sent:
without an operation and without a recorded machine nothing is known about it.
-/

namespace RunnerScout.Provider

open Interaction Program Lifecycle Placement

variable {command : String → Command} {creation : Creation} {e : Option GoError} {a b : Allocation}

/-! ## What the adapter returns -/

section Adapter

variable {p : Command} {trace : List (Exchange AdapterCalls)}

theorem createGCP_unsent {script : Script} (run : (createGCP p a script).Returns trace (creation, e))
    (unsent : ∀ x ∈ trace, x.request.creates = false) : creation.resourceID = "" := by
  unfold createGCP at run
  split at run
  · cases run.of_pure
    rfl
  obtain ⟨first, rest, inventory, rfl, _, run⟩ := returns_bind.mp run
  split at run
  · obtain ⟨reply, later, rfl, _⟩ := returns_ask.mp run
    cases unsent _ (List.mem_append_right _ List.mem_cons_self)
  · cases run.of_pure
    rfl

/-- A create call that sends no request names no machine. -/
theorem createWithResources_unsent (gcp : p.config.kind = "gcp")
    (run : (p.createWithResources a).Returns trace (creation, e))
    (unsent : ∀ x ∈ trace, x.request.creates = false) : creation.resourceID = "" := by
  have ends {creation' : Creation} {e' : Option GoError} {trace : List (Exchange AdapterCalls)}
      (unnamed : creation'.resourceID = "")
      (run : (pure (creation', e') : Program AdapterCalls _).Returns trace (creation, e)) : creation.resourceID = "" := by
    cases run.of_pure
    exact unnamed
  unfold Command.createWithResources at run
  split at run
  · exact ends rfl run
  split at run
  · exact ends rfl run
  split at run
  · exact ends rfl run
  split at run
  · exact ends rfl run
  obtain ⟨jit, later, rfl, booted⟩ := returns_ask.mp run
  cases jit with
  | error failure => exact ends rfl booted
  | ok jit =>
    dsimp only at booted
    split at booted
    · exact ends rfl booted
    obtain ⟨first, rest, overlay, rfl, _, goesOn⟩ := returns_bind.mp booted
    cases overlay with
    | error failure => exact ends rfl goesOn
    | ok overlay =>
      obtain ⟨inner, rest, ⟨received, failure⟩, rfl, created, returned⟩ := returns_bind.mp goesOn
      rw [createOn, if_neg (by rw [gcp]; decide), if_neg (by rw [gcp]; decide)] at created
      have unnamed := createGCP_unsent created fun x member =>
        unsent x (List.mem_cons_of_mem _ (List.mem_append_right _ (List.mem_append_left _ member)))
      refine ends ?_ returned
      cases overlay <;> exact unnamed

/-- A listing of operations with nothing in it, or any other exchange. -/
def NoOperation : Exchange AdapterCalls → Prop
  | ⟨.read (.gcpOperations _ _), pages⟩ => ∀ page, .ok page ∈ pages → page.items = []
  | _ => True

variable {reads : List (Exchange CloudCalls)} {ob : Observation}

/-- Without an operation and without a recorded machine nothing is known. -/
theorem observe_unknown (gcp : p.config.kind = "gcp") (unnamed : a.resourceID = "")
    (run : (p.observe a).Returns reads (ob, e)) (empty : ∀ x ∈ reads, NoOperation (Read x)) : ob.known = false := by
  by_contra known
  have known : ob.known = true := by simpa using known
  obtain ⟨kind, _⟩ | ⟨kind, _⟩ | ⟨_, _, _, observed⟩ := observe_cases run known
  · exact absurd (kind.symm.trans gcp) (by decide)
  · exact absurd (kind.symm.trans gcp) (by decide)
  obtain ⟨first, second, third, _, rfl, created, _⟩ := observeGCP_returns observed known
  obtain ⟨pages, rfl, ⟨op, ⟨page, listed, member⟩, _⟩ | named⟩ := gcpCreateTerminal_returns created
  · have none : page.items = [] := empty ⟨_, pages⟩ List.mem_cons_self page listed
    rw [none] at member
    cases member
  · exact named unnamed

theorem reconcileCreation_unknown (gcp : p.config.kind = "gcp") (unnamed : a.resourceID = "")
    (run : (p.reconcileCreation a).Returns reads (ob, e)) (empty : ∀ x ∈ reads, NoOperation (Read x)) :
    ob.known = false := by
  unfold Command.reconcileCreation at run
  split at run
  · cases run.of_pure
    rfl
  · rw [if_pos (by rw [gcp]; decide)] at run
    exact observe_unknown gcp unnamed run empty

end Adapter

/-! ## `Step` -/

/-- What the store returns in a run of `Step`, by an invariant of its view. -/
theorem lastStored_kept {c : Controller} {holds : View → Prop} {kept : Allocation → Prop} {fits : Exchange Calls → Prop}
    (keeps : ∀ view x, holds view → view.allowed c x.request → View.answers x.request x.reply → fits x →
      holds (view.next x.request x.reply) ∧ ∀ stored, lastStored [x] none = some stored → kept stored) :
    ∀ {trace : List (Exchange Calls)} {program : Program Calls (Option GoError)} {view : View} {known : Allocation}
      {result : Option GoError}, program.Follows (stepProtocol c) view (fun _ _ => True) →
      program.Returns trace result → holds view → kept known →
      (∀ x ∈ trace, View.answers x.request x.reply) → (∀ x ∈ trace, fits x) →
      ∃ b, lastStored trace (some known) = some b ∧ kept b
  | [], _, _, known, _, _, _, _, first, _, _ => ⟨known, rfl, first⟩
  | x :: later, .done _, _, _, _, _, run, _, _, _, _ => by cases (returns_done.mp run).1
  | x :: later, .call request next, view, known, result, follows, run, held, first, honest, fit => by
    obtain ⟨reply, _, same, rest⟩ := returns_call.mp run
    cases same
    obtain ⟨answers, honest⟩ := List.forall_mem_cons.mp honest
    obtain ⟨fits, fit⟩ := List.forall_mem_cons.mp fit
    obtain ⟨after, stores⟩ := keeps view ⟨request, reply⟩ held follows.1 answers fits
    have next : ∃ b, lastStored [⟨request, reply⟩] (some known) = some b ∧ kept b := by
      cases request with
      | load | save =>
        cases reply with
        | error e => exact ⟨known, rfl, first⟩
        | ok stored => exact ⟨stored, rfl, stores stored rfl⟩
      | _ => exact ⟨known, rfl, first⟩
    obtain ⟨b, last, first⟩ := next
    rw [lastStored_cons, last]
    exact lastStored_kept keeps (follows.2 reply answers) rest after first honest fit

/-- A committed record of Compute Engine without a machine. -/
structure Stranded (command : String → Command) (a : Allocation) : Prop where
  creating : a.phase = .creating
  unnamed : a.resourceID = ""
  gcp : (command a.offering.provider).config.kind = "gcp"

theorem Stranded.saved (stranded : Stranded command a) (saved : Saved a b) : Stranded command b := by
  rw [saved]
  exact ⟨stranded.creating, stranded.unnamed, stranded.gcp⟩

/-- What a `Step` over a stranded record holds. -/
def Waits (command : String → Command) : View → Prop
  | .loaded a | .deciding _ a _ => Stranded command a
  | .observed _ a ob _ _ => Stranded command a ∧ ob.known = false
  | .closed => True
  | _ => False

/-- Such a `Step` learns nothing about the record, and whatever it saves is stranded. -/
theorem waits_kept {c : Controller} (view : View) (x : Exchange Calls) (waits : Waits command view)
    (allowed : view.allowed c x.request) (answers : View.answers x.request x.reply)
    (adapted : Adapted command NoOperation x) :
    Waits command (view.next x.request x.reply) ∧
      ∀ stored, lastStored [x] none = some stored → Stranded command stored := by
  obtain ⟨request, reply⟩ := x
  cases request with
  | load =>
    cases allowed
    cases waits
  | now =>
    obtain ⟨a, rfl⟩ := allowed
    exact ⟨waits, fun _ stored => by cases stored⟩
  | save x revision =>
    obtain ⟨writes, _⟩ := allowed
    cases reply with
    | error e => exact ⟨trivial, fun _ stored => by cases stored⟩
    | ok stored =>
      cases writes with
      | pending phase => cases waits.creating.symm.trans phase
      | cleanUp phase => cases waits.creating.symm.trans phase
      | created => cases waits
      | fence phase =>
        have kept := waits.saved answers
        simp only [View.next, phase]
        exact ⟨kept, fun _ same => by cases same; exact kept⟩
      | observed write =>
        -- an observation that knows nothing changes neither phase nor machine
        obtain ⟨stranded, unknown⟩ := waits
        have kept : Stranded command x := by
          cases write with
          | remember | undecided => exact ⟨stranded.creating, stranded.unnamed, stranded.gcp⟩
          | release _ absent => cases unknown.symm.trans absent.2.1
          | found _ _ known => cases unknown.symm.trans known
          | unconfirmed phase => cases stranded.creating.symm.trans phase
        exact ⟨⟨kept.saved answers, unknown⟩, fun _ same => by cases same; exact kept.saved answers⟩
  | create | createWithResources =>
    obtain ⟨_, _, rfl, _⟩ := allowed
    cases waits
  | observe name b =>
    obtain ⟨now, rfl, rfl, _⟩ := allowed
    obtain ⟨trace, run, empty⟩ := adapted _ rfl
    obtain ⟨reads, rfl, observed⟩ := reading_returns run
    exact ⟨⟨waits, observe_unknown waits.gcp waits.unnamed observed (List.forall_mem_map.mp empty)⟩,
      fun _ stored => by cases stored⟩
  | reconcileCreation name b =>
    obtain ⟨now, rfl, rfl, _⟩ := allowed
    obtain ⟨trace, run, empty⟩ := adapted _ rfl
    obtain ⟨reads, rfl, observed⟩ := reading_returns run
    exact ⟨⟨waits, reconcileCreation_unknown waits.gcp waits.unnamed observed (List.forall_mem_map.mp empty)⟩,
      fun _ stored => by cases stored⟩
  | delete =>
    obtain ⟨_, _, rfl, _, _, known, _⟩ := allowed
    cases waits.2.symm.trans known
  | deregisterRunner =>
    obtain ⟨_, _, rfl, _, phase, _⟩ | ⟨_, _, _, _, rfl, _, absent⟩ := allowed
    · cases waits.creating.symm.trans phase
    · cases waits.2.symm.trans absent.2.1

/-- What a `Step` over a pending record holds while no create request is sent. -/
def Attempts (command : String → Command) : View → Prop
  | .loaded a => a.phase = .pending
  | .deciding _ a _ => a.phase = .pending ∨ a.phase = .timedOut
  | .committed _ o a => a.phase = .creating ∧ a.resourceID = "" ∧ a.offering = o
  | .created _ _ a creation _ =>
    a.phase = .creating ∧ a.resourceID = "" ∧
      ((command a.offering.provider).config.kind = "gcp" → creation.resourceID = "")
  | .closed => True
  | _ => False

/-- A record that is stranded once it is committed to Compute Engine. -/
def Unnamed (command : String → Command) (a : Allocation) : Prop :=
  a.phase = .creating → (command a.offering.provider).config.kind = "gcp" → a.resourceID = ""

/-- Such a `Step` saves no record in `Creating` with a machine. -/
theorem attempts_kept {c : Controller} (view : View) (x : Exchange Calls) (attempts : Attempts command view)
    (allowed : view.allowed c x.request) (answers : View.answers x.request x.reply)
    (adapted : Adapted command (fun y => y.request.creates = false) x) :
    Attempts command (view.next x.request x.reply) ∧
      ∀ stored, lastStored [x] none = some stored → Unnamed command stored := by
  obtain ⟨request, reply⟩ := x
  cases request with
  | load =>
    cases allowed
    cases attempts
  | now =>
    obtain ⟨a, rfl⟩ := allowed
    exact ⟨.inl attempts, fun _ stored => by cases stored⟩
  | save x revision =>
    obtain ⟨writes, _⟩ := allowed
    cases reply with
    | error e => exact ⟨trivial, fun _ stored => by cases stored⟩
    | ok stored =>
      have phase : stored.phase = x.phase := by rw [answers]
      have named : stored.resourceID = x.resourceID := by rw [answers]
      have offering : stored.offering = x.offering := by rw [answers]
      cases writes with
      | pending pending retains write =>
        cases write with
        | timeOut =>
          simp only [View.next, Allocation.timeOut, reduceCtorEq, and_false, if_false]
          exact ⟨.inr phase, fun _ same creating => by cases same; cases phase.symm.trans creating⟩
        | refused =>
          have kept : stored.phase = .pending := phase.trans pending
          simp only [View.next, pending]
          exact ⟨.inl kept, fun _ same creating => by cases same; cases kept.symm.trans creating⟩
        | commit waits o =>
          -- a record that may be committed names no machine
          simp only [Allocation.retainsResources, Bool.or_eq_false_iff, decide_eq_false_iff_not, not_not] at retains
          have unnamed : stored.resourceID = "" := named.trans retains.1
          simp only [View.next, pending, Allocation.commit]
          exact ⟨⟨phase, unnamed, offering⟩, fun _ same _ _ => by cases same; exact unnamed⟩
      | fence creating => cases attempts <;> simp_all
      | cleanUp running => cases attempts <;> simp_all
      | observed => cases attempts
      | created write =>
        -- only an unclassified failure leaves the record in `Creating`, and its receipt is empty
        obtain ⟨creating, unnamed, empty⟩ := attempts
        refine ⟨trivial, fun _ same creating' gcp => ?_⟩
        cases same
        rw [named]
        rw [phase] at creating'
        rw [offering] at gcp
        cases write with
        | preparationFailed | capacityRejected | vmCreated => cases creating'
        | unmerged | uncertain => simp [Allocation.uncertain, Allocation.receive, empty gcp, unnamed]
  | create name b =>
    obtain ⟨now, o, rfl, rfl⟩ := allowed
    obtain ⟨creating, unnamed, rfl⟩ := attempts
    obtain ⟨trace, run, unsent⟩ := adapted _ rfl
    refine ⟨⟨creating, unnamed, fun gcp => ?_⟩, fun _ stored => by cases stored⟩
    obtain ⟨first, _, ⟨creation, e⟩, rfl, created, ends⟩ := returns_bind.mp run
    obtain ⟨_, rfl⟩ := returns_pure.mp ends
    have unnamed : creation.resourceID = "" :=
      createWithResources_unsent gcp created fun x member => unsent x (List.mem_append_left _ member)
    exact unnamed
  | createWithResources name b =>
    obtain ⟨now, o, rfl, rfl⟩ := allowed
    obtain ⟨creating, unnamed, rfl⟩ := attempts
    obtain ⟨trace, run, unsent⟩ := adapted _ rfl
    exact ⟨⟨creating, unnamed, fun gcp => createWithResources_unsent gcp run unsent⟩, fun _ stored => by cases stored⟩
  | observe name b =>
    obtain ⟨now, rfl, _, phases⟩ := allowed
    cases attempts <;> simp_all
  | reconcileCreation name b =>
    obtain ⟨now, rfl, _, phase⟩ := allowed
    cases attempts <;> simp_all
  | delete =>
    obtain ⟨_, _, rfl, _⟩ := allowed
    cases attempts
  | deregisterRunner =>
    obtain ⟨_, _, rfl, _⟩ | ⟨_, _, _, _, rfl, _⟩ := allowed
    · cases reply with
      | some e => exact ⟨trivial, fun _ stored => by cases stored⟩
      | none => exact ⟨attempts, fun _ stored => by cases stored⟩
    · cases attempts

/-- A `Step` from a record it was given, under an invariant of its view. -/
theorem step_kept {c : Controller} {id : String} {holds : View → Prop} {kept : Allocation → Prop}
    {fits : Exchange Calls → Prop} {trace : List (Exchange Calls)} {result : Option GoError}
    (keeps : ∀ view x, holds view → view.allowed c x.request → View.answers x.request x.reply → fits x →
      holds (view.next x.request x.reply) ∧ ∀ stored, lastStored [x] none = some stored → kept stored)
    (run : (c.step id).Returns (⟨.load id, .ok a⟩ :: trace) result) (loaded : holds (.loaded a)) (first : kept a)
    (honest : ∀ x ∈ trace, View.answers x.request x.reply) (fit : ∀ x ∈ trace, fits x) :
    ∃ b, lastStored trace (some a) = some b ∧ kept b := by
  obtain ⟨reply, later, same, goesOn⟩ := returns_ask.mp run
  cases same
  have follows : (c.step id).Follows (stepProtocol c) .start fun _ _ => True := step_follows id
  exact lastStored_kept keeps (follows.2 (.ok a) trivial) goesOn loaded first honest fit

/-- A create attempt on Compute Engine that sent no request and left its record in
    `Creating` has left it there for good: while the project lists no operation for it, the
    next `Step` keeps it in `Creating`, whether or not it was retired in between and
    whatever the time. -/
theorem unsent_creation_stays {c c' : Controller} {id : String} {first trace : List (Exchange Calls)}
    {result result' : Option GoError} (pending : a.phase = .pending)
    (attempt : (c.step id).Returns (⟨.load id, .ok a⟩ :: first) result)
    (honest : ∀ x ∈ first, View.answers x.request x.reply)
    (unsent : ∀ x ∈ first, Adapted command (fun y => y.request.creates = false) x)
    (left : lastStored first (some a) = some b) (creating : b.phase = .creating)
    (gcp : (command b.offering.provider).config.kind = "gcp") (retire : Bool)
    (next : (c'.step id).Returns (⟨.load id, .ok { b with retire := retire }⟩ :: trace) result')
    (honest' : ∀ x ∈ trace, View.answers x.request x.reply) (empty : ∀ x ∈ trace, Adapted command NoOperation x) :
    ∃ after, lastStored trace (some { b with retire := retire }) = some after ∧ after.phase = .creating := by
  have unnamed : Unnamed command a := fun creating => by cases pending.symm.trans creating
  obtain ⟨_, last, unnamed⟩ := step_kept attempts_kept attempt pending unnamed honest unsent
  cases left.symm.trans last
  have stranded : Stranded command { b with retire := retire } := ⟨creating, unnamed creating gcp, gcp⟩
  obtain ⟨after, last, stranded⟩ := step_kept waits_kept next stranded stranded honest' empty
  exact ⟨after, last, stranded.creating⟩

/-! ### On a project without operations -/

def gcpOffering : Offering :=
  { armOffering "pool" "z1" 10 with provider := "gcp", machine := "n1", image := "image" }

def meshRecord : Allocation :=
  { twoPools with
    networkProfile := "mesh"
    requirements := { twoPools.requirements with providers := ["gcp"] }
    catalog := { offerings := [gcpOffering], complete := AList.singleton "gcp" true } }

def gcpController : Controller where
  providers := AList.singleton "gcp" ⟨true, true⟩

/-- A project with nothing in it, while the peers of the overlay network cannot be listed. -/
def peerlessProject : (request : AdapterRequest) → Unit → AdapterReply request × Unit
  | .networkPeers _, s => (.error (.new "list allocations: unavailable"), s)
  | request, s => (emptyProject (.error { text := "lost" }) request, s)

theorem peerlessProject_empty (request : AdapterRequest) (s : Unit) :
    NoOperation ⟨request, (peerlessProject request s).1⟩ := by
  cases request with
  | read request =>
    cases request with
    | gcpOperations =>
      intro page member
      cases List.mem_singleton.mp member
      rfl
    | _ => trivial
  | _ => trivial

/-- The calls of one `Step`, and the scene after it. -/
def stepOf (s : Scene Unit) : List (Exchange Calls) × Option GoError × Scene Unit :=
  (gcpController.step "runner-1").converse (fun request s => s.answer (fun _ => gcpCommand) peerlessProject request) s

def meshScene : Scene Unit := ⟨meshRecord, 2 * second, ()⟩

/-- The adapter sends no create request for a call of `Step`. -/
def sendsNothing : Exchange Calls → Bool
  | ⟨.createWithResources _ a, _⟩ =>
    ((gcpCommand.createWithResources a).converse peerlessProject ()).1.all fun y => !y.request.creates
  | ⟨.create _ _, _⟩ | ⟨.delete _ _, _⟩ => false
  | _ => true

theorem Scene.answer_unsent (request : Request) (s : Scene Unit)
    (sends : sendsNothing ⟨request, (s.answer (fun _ => gcpCommand) peerlessProject request).1⟩ = true) :
    Adapted (fun _ => gcpCommand) (fun y => y.request.creates = false)
      ⟨request, (s.answer (fun _ => gcpCommand) peerlessProject request).1⟩ := by
  refine Scene.answer_adapted _ _ request s fun program call y member => ?_
  cases request with
  | load | save | now | deregisterRunner => cases call
  | create | delete => cases sends
  | createWithResources name a =>
    cases call
    simpa using List.all_eq_true.mp sends y member
  | observe | reconcileCreation =>
    cases call
    exact (neither_of_passive (((reading_only _).performs (returns_converse peerlessProject _ s.cloud)).1 y member)).1

/-- A scene keeps what it is given. -/
theorem Scene.answer_honest {σ : Type} {cloud : (request : AdapterRequest) → σ → AdapterReply request × σ}
    (request : Request) (s : Scene σ) : View.answers request (s.answer command cloud request).1 := by
  cases request with
  | save x revision =>
    simp only [Scene.answer]
    split
    · rfl
    · trivial
  | _ => trivial

theorem unsent_creation_stays_meshRecord :
    ∃ b, lastStored (stepOf meshScene).1.tail (some meshRecord) = some b ∧ b.phase = .creating ∧
      ∃ after, lastStored (stepOf ⟨{ b with retire := true }, 2000 * second, ()⟩).1.tail
          (some { b with retire := true }) = some after ∧ after.phase = .creating := by
  have phase : (lastStored (stepOf meshScene).1.tail (some meshRecord)).map Allocation.phase = some .creating := by
    decide +kernel
  obtain ⟨b, left, creating⟩ := Option.map_eq_some_iff.mp phase
  refine ⟨b, left, creating, ?_⟩
  have silent : ∀ x ∈ (stepOf meshScene).1, sendsNothing x = true := List.all_eq_true.mp (by decide +kernel)
  have run (s : Scene Unit) := returns_converse
    (fun request s => s.answer (fun _ => gcpCommand) peerlessProject request) (gcpController.step "runner-1") s
  have honest (s : Scene Unit) : ∀ x ∈ (stepOf s).1, View.answers x.request x.reply :=
    forall_mem_converse (fun x : Exchange Calls => View.answers x.request x.reply) Scene.answer_honest _ s
  have unsent : ∀ x ∈ (stepOf meshScene).1, sendsNothing x = true →
      Adapted (fun _ => gcpCommand) (fun y => y.request.creates = false) x :=
    forall_mem_converse _ Scene.answer_unsent _ meshScene
  have empty (s : Scene Unit) : ∀ x ∈ (stepOf s).1, Adapted (fun _ => gcpCommand) NoOperation x :=
    forall_mem_converse _ (fun request s => Scene.answer_adapted _ _ request s fun program _ =>
      forall_mem_converse NoOperation peerlessProject_empty program s.cloud) _ s
  exact unsent_creation_stays rfl (run meshScene) (fun x member => honest _ x (List.mem_of_mem_tail member))
    (fun x member => unsent x (List.mem_of_mem_tail member) (silent x (List.mem_of_mem_tail member))) left creating rfl
    true (run ⟨{ b with retire := true }, 2000 * second, ()⟩)
    (fun x member => honest _ x (List.mem_of_mem_tail member)) fun x member => empty _ x (List.mem_of_mem_tail member)

/-- The network peers cannot be listed, so nothing is sent; and nothing is ever known: the
    record stays in `Creating`, also once it is retired and its deadline has passed. -/
theorem unsent_creation_stuck :
    let after (n : Nat) (s : Scene Unit) := Scene.steps (fun _ => gcpCommand) peerlessProject gcpController n s
    (after 1 meshScene).record.phase = .creating ∧ (stepOf meshScene).1.all sendsNothing = true ∧
      (after 2 meshScene).record.phase = .creating ∧
      (after 1 { after 1 meshScene with
        record := { (after 1 meshScene).record with retire := true }
        now := 2000 * second }).record.phase = .creating :=
  ⟨by decide +kernel, by decide +kernel, by decide +kernel, by decide +kernel⟩

end RunnerScout.Provider
