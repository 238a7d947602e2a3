import Mathlib.Logic.Function.Basic
import RunnerScout.Interaction.Program

/-! # Programs sharing one world

Any number of threads run programs against one world.  A thread is resumed one
request at a time, may crash between any two of its requests (its program is
dropped and never resumed), and may be followed by a fresh program in its place.
The surroundings may move the world on their own as well.  A request takes effect
when its thread is resumed, so a call in flight is a thread waiting for that
moment, and a process that dies with a call in flight is a thread that is resumed
for that call and then crashes.

The proof rule is rely and guarantee: each thread states what it relies on the
others to respect, and every request it makes must keep the invariant and what
the others rely on.  `reachable_safe` is the whole-run consequence.
-/

namespace RunnerScout.Interaction

/-- What one request of one thread may do to the world. -/
abbrev Semantics (S : Signature) (W : Type) :=
  Nat → W → (request : S.Request) → S.Reply request → W → Prop

/-- A set of threads and the world they share.  A thread that has not started,
    has crashed, or has been replaced holds no program. -/
structure System (S : Signature) (W α : Type) where
  world : W
  threads : Nat → Option (Program S α)

namespace System

variable {S : Signature} {W α : Type}

/-- The moves of a system: an idle thread starts one of the programs it may start
    (`together` says which threads may hold programs at the same time), a thread is
    resumed with a reply to its pending request, a thread crashes, or the surroundings
    move the world. -/
inductive Step (semantics : Semantics S W) (surroundings : W → W → Prop)
    (starts : Nat → Program S α → Prop) (together : Nat → Nat → Prop) : System S W α → System S W α → Prop where
  | start {system : System S W α} (thread : Nat) (program : Program S α)
      (idle : system.threads thread = none)
      (free : ∀ other, system.threads other ≠ none → together thread other ∧ together other thread)
      (allowed : starts thread program) :
      Step semantics surroundings starts together system
        { system with threads := Function.update system.threads thread (some program) }
  | resume {system : System S W α} (thread : Nat) (request : S.Request)
      (next : S.Reply request → Program S α) (reply : S.Reply request) (after : W)
      (pending : system.threads thread = some (.call request next))
      (executed : semantics thread system.world request reply after) :
      Step semantics surroundings starts together system
        { world := after, threads := Function.update system.threads thread (some (next reply)) }
  | crash {system : System S W α} (thread : Nat) :
      Step semantics surroundings starts together system
        { system with threads := Function.update system.threads thread none }
  | move {system : System S W α} (after : W) (moved : surroundings system.world after) :
      Step semantics surroundings starts together system { system with world := after }

inductive Reachable (semantics : Semantics S W) (surroundings : W → W → Prop)
    (starts : Nat → Program S α → Prop) (together : Nat → Nat → Prop) (initial : W → Prop) :
    System S W α → Prop where
  | initial (world : W) (holds : initial world) :
      Reachable semantics surroundings starts together initial ⟨world, fun _ => none⟩
  | step {before after : System S W α}
      (reachable : Reachable semantics surroundings starts together initial before)
      (step : Step semantics surroundings starts together before after) :
      Reachable semantics surroundings starts together initial after

/-- Any two threads may run at the same time. -/
def concurrent (thread other : Nat) : Prop := other ≠ thread

/-- One program at a time. -/
def serial (_ _ : Nat) : Prop := False

/-! ## Runs of one thread

A run is exhibited by an oracle, a world that answers every request in one of the
ways the semantics allows. -/

/-- Let a program make up to `fuel` requests. -/
def playFor (oracle : (request : S.Request) → W → S.Reply request × W) :
    Nat → Program S α → W → Program S α × W
  | 0, program, world => (program, world)
  | _ + 1, .done value, world => (.done value, world)
  | fuel + 1, .call request next, world =>
    playFor oracle fuel (next (oracle request world).1) (oracle request world).2

/-- Threads that take turns: each starts its program, makes up to `fuel` of its
    requests and stops there. -/
def playAll (oracle : Nat → (request : S.Request) → W → S.Reply request × W) :
    List (Nat × Nat × Program S α) → W → W
  | [], world => world
  | (thread, fuel, program) :: rest, world => playAll oracle rest (playFor (oracle thread) fuel program world).2

section Play

variable {semantics : Semantics S W} {surroundings : W → W → Prop} {starts : Nat → Program S α → Prop}
  {together : Nat → Nat → Prop} {initial : W → Prop}

theorem Reachable.playFor {thread : Nat} {oracle : (request : S.Request) → W → S.Reply request × W}
    (honest : ∀ request world, semantics thread world request (oracle request world).1 (oracle request world).2)
    (fuel : Nat) {program : Program S α} {world : W} {threads : Nat → Option (Program S α)}
    (reachable : Reachable semantics surroundings starts together initial
      ⟨world, Function.update threads thread (some program)⟩) :
    Reachable semantics surroundings starts together initial
      ⟨(System.playFor oracle fuel program world).2,
        Function.update threads thread (some (System.playFor oracle fuel program world).1)⟩ := by
  induction fuel generalizing program world with
  | zero => exact reachable
  | succ fuel ih =>
    cases program with
    | done value => exact reachable
    | call request next =>
      have resumed := reachable.step
        (.resume thread request next _ _ (Function.update_self ..) (honest request world))
      rw [Function.update_idem] at resumed
      exact ih resumed

theorem Reachable.playAll {oracle : Nat → (request : S.Request) → W → S.Reply request × W}
    (honest : ∀ thread request world,
      semantics thread world request (oracle thread request world).1 (oracle thread request world).2)
    (turns : List (Nat × Nat × Program S α)) (allowed : ∀ turn ∈ turns, starts turn.1 turn.2.2) {world : W}
    (reachable : Reachable semantics surroundings starts together initial ⟨world, fun _ => none⟩) :
    Reachable semantics surroundings starts together initial
      ⟨System.playAll oracle turns world, fun _ => (none : Option (Program S α))⟩ := by
  induction turns generalizing world with
  | nil => exact reachable
  | cons turn rest ih =>
    obtain ⟨thread, fuel, program⟩ := turn
    have started := reachable.step (.start thread program rfl (fun _ running => absurd rfl running)
      (allowed _ List.mem_cons_self))
    -- the crash at the end of a turn leaves the world as it is
    have played := (started.playFor (honest thread) fuel).step (.crash thread)
    rw [Function.update_idem, Function.update_eq_self] at played
    exact ih (fun turn member => allowed turn (List.mem_cons_of_mem _ member)) played

end Play

end System

/-- An invariant of the world, which threads may run at the same time, and what each
    thread relies on those to respect. -/
structure Rely (W : Type) where
  invariant : W → Prop
  rely : Nat → W → W → Prop
  together : Nat → Nat → Prop := System.concurrent
  refl : ∀ thread world, rely thread world world
  trans : ∀ thread first second third,
    rely thread first second → rely thread second third → rely thread first third

namespace Rely

variable {S : Signature} {W V α : Type} (rely : Rely W) (semantics : Semantics S W)

/-- A request is safe when, after any interference the thread allows for, it keeps
    the invariant and what every other thread relies on. -/
def handler (thread : Nat) : Handler S W :=
  fun request post world =>
    ∀ now, rely.invariant now → rely.rely thread world now →
      ∀ reply after, semantics thread now request reply after →
        rely.invariant after ∧ (∀ other, rely.together thread other → rely.rely other now after) ∧ post reply after

theorem handler_monotone (thread : Nat) : (rely.handler semantics thread).Monotone := by
  intro request first second world implies holds now kept later reply after executed
  obtain ⟨keeps, others, rest⟩ := holds now kept later reply after executed
  exact ⟨keeps, others, implies reply after rest⟩

/-- A program is safe for a thread when all its requests are, and once it has
    returned its result stands, however long the thread then waits. -/
def Safe (thread : Nat) (program : Program S α) (post : α → W → Prop) (world : W) : Prop :=
  program.wp (rely.handler semantics thread)
    (fun value ended => ∀ later, rely.invariant later → rely.rely thread ended later → post value later) world

variable {rely semantics}

theorem Safe.interfere {thread : Nat} {program : Program S α} {post : α → W → Prop} {before after : W}
    (safe : rely.Safe semantics thread program post before) (interference : rely.rely thread before after) :
    rely.Safe semantics thread program post after := by
  cases program with
  | done value =>
    intro later kept relied
    exact safe later kept (rely.trans thread _ _ _ interference relied)
  | call request next =>
    intro now kept later
    exact safe now kept (rely.trans thread _ _ _ interference later)

/-- A program that keeps to a protocol is safe once each allowed request is, under
    an assertion that ties the thread's view to the world and that no interference
    breaks. -/
theorem safe_of_follows (protocol : Protocol S V) {thread : Nat} (assertion : V → W → Prop)
    (stable : ∀ view before after, rely.invariant after → assertion view before →
      rely.rely thread before after → assertion view after)
    (request : ∀ view world request reply after, rely.invariant world → assertion view world →
      protocol.allowed view request → semantics thread world request reply after →
      rely.invariant after ∧ (∀ other, rely.together thread other → rely.rely other world after) ∧
        protocol.answers request reply ∧ assertion (protocol.next view request reply) after)
    {program : Program S α} {view : V} {world : W} {result : α → V → Prop} {post : α → W → Prop}
    (follows : program.Follows protocol view result) (holds : assertion view world)
    (ends : ∀ value view world, result value view → assertion view world → post value world) :
    rely.Safe semantics thread program post world := by
  refine Program.wp_simulate assertion ?_ program ?_ holds follows
  · intro asked view world link first second carry abstract now kept later reply after executed
    obtain ⟨allowed, rest⟩ := abstract
    have current := stable view world now kept link later
    obtain ⟨keeps, others, answered, linked⟩ := request view now asked reply after kept current allowed executed
    exact ⟨keeps, others, carry reply _ after linked (rest reply answered)⟩
  · intro value view ended link holds later kept relied
    exact ends value view later holds (stable view ended later kept link relied)

/-- What a whole run keeps: the invariant, who runs with whom, and the safety of
    every thread in it. -/
structure SystemSafe (rely : Rely W) (semantics : Semantics S W) (post : Nat → α → W → Prop)
    (system : System S W α) : Prop where
  invariant : rely.invariant system.world
  apart : ∀ thread other, other ≠ thread → system.threads thread ≠ none → system.threads other ≠ none →
    rely.together thread other
  threads : ∀ thread program, system.threads thread = some program →
    rely.Safe semantics thread program (post thread) system.world

theorem SystemSafe.result {post : Nat → α → W → Prop} {system : System S W α}
    (safe : SystemSafe rely semantics post system) {thread : Nat} {value : α}
    (ended : system.threads thread = some (.done value)) : post thread value system.world :=
  safe.threads thread _ ended system.world safe.invariant (rely.refl _ _)

/-- A thread holding a program after one slot was rewritten is that slot, or was
    holding it before. -/
theorem update_held {threads : Nat → Option (Program S α)} {thread other : Nat}
    {slot : Option (Program S α)} {program : Program S α}
    (held : Function.update threads thread slot other = some program) :
    (other = thread ∧ slot = some program) ∨ (other ≠ thread ∧ threads other = some program) := by
  by_cases same : other = thread
  · subst same
    rw [Function.update_self] at held
    exact .inl ⟨rfl, held⟩
  · rw [Function.update_of_ne same] at held
    exact .inr ⟨same, held⟩

section Runs

variable {post : Nat → α → W → Prop} {surroundings : W → W → Prop} {starts : Nat → Program S α → Prop}
  {initial : W → Prop}

/-- Rewriting one slot keeps who runs with whom, once its own thread may run with
    all the others. -/
theorem apart_update {threads : Nat → Option (Program S α)} {thread : Nat} {slot : Option (Program S α)}
    (apart : ∀ first second, second ≠ first → threads first ≠ none → threads second ≠ none →
      rely.together first second)
    (joins : slot ≠ none → ∀ other, other ≠ thread → threads other ≠ none →
      rely.together thread other ∧ rely.together other thread)
    (first second : Nat) (different : second ≠ first) (running : Function.update threads thread slot first ≠ none)
    (other : Function.update threads thread slot second ≠ none) : rely.together first second := by
  by_cases isFirst : first = thread
  · subst isFirst
    rw [Function.update_self] at running
    rw [Function.update_of_ne different] at other
    exact (joins running second different other).1
  rw [Function.update_of_ne isFirst] at running
  by_cases isSecond : second = thread
  · subst isSecond
    rw [Function.update_self] at other
    exact (joins other first isFirst running).2
  rw [Function.update_of_ne isSecond] at other
  exact apart first second different running other

variable (base : ∀ world, initial world → rely.invariant world)
  (moves : ∀ before after, rely.invariant before → surroundings before after →
    rely.invariant after ∧ ∀ thread, rely.rely thread before after)
  (fresh : ∀ thread world program, rely.invariant world → starts thread program →
    rely.Safe semantics thread program (post thread) world)

include moves fresh

theorem SystemSafe.step {before after : System S W α} (safe : SystemSafe rely semantics post before)
    (step : System.Step semantics surroundings starts rely.together before after) :
    SystemSafe rely semantics post after := by
  cases step with
  | start thread program idle free allowed =>
    refine ⟨safe.invariant, apart_update safe.apart fun _ other _ => free other, fun other held running => ?_⟩
    obtain ⟨rfl, same⟩ | ⟨_, kept⟩ := update_held running
    · cases same
      exact fresh other _ _ safe.invariant allowed
    · exact safe.threads other held kept
  | resume thread request next reply after pending executed =>
    have started : before.threads thread ≠ none := by rw [pending]; exact Option.some_ne_none _
    obtain ⟨keeps, others, rest⟩ := safe.threads thread _ pending before.world safe.invariant
      (rely.refl _ _) reply after executed
    refine ⟨keeps, apart_update safe.apart fun _ other different running =>
      ⟨safe.apart thread other different started running, safe.apart other thread (Ne.symm different) running started⟩,
      fun other held running => ?_⟩
    obtain ⟨rfl, same⟩ | ⟨different, kept⟩ := update_held running
    · cases same
      exact rest
    · have alive : before.threads other ≠ none := by rw [kept]; exact Option.some_ne_none _
      exact (safe.threads other held kept).interfere (others other (safe.apart thread other different started alive))
  | crash thread =>
    refine ⟨safe.invariant, apart_update safe.apart fun gone => absurd rfl gone, fun other held running => ?_⟩
    obtain ⟨_, impossible⟩ | ⟨_, kept⟩ := update_held running
    · cases impossible
    · exact safe.threads other held kept
  | move world moved =>
    obtain ⟨keeps, others⟩ := moves _ _ safe.invariant moved
    exact ⟨keeps, safe.apart,
      fun thread program running => (safe.threads thread program running).interfere (others thread)⟩

include base in
theorem reachable_safe {system : System S W α}
    (reachable : System.Reachable semantics surroundings starts rely.together initial system) :
    SystemSafe rely semantics post system := by
  induction reachable with
  | initial world holds =>
    exact ⟨base world holds, fun _ _ _ running => absurd rfl running, fun _ _ running => nomatch running⟩
  | step _ step safe => exact safe.step moves fresh step

end Runs

/-! ## Pre- and postconditions

For a program whose argument follows its own control flow rather than a protocol:
an assertion between any two requests, none of which interference breaks. -/

def Stable (rely : Rely W) (thread : Nat) (assertion : W → Prop) : Prop :=
  ∀ before after, rely.invariant after → rely.rely thread before after → assertion before → assertion after

def Triple (rely : Rely W) (semantics : Semantics S W) (thread : Nat) (pre : W → Prop) (program : Program S α)
    (post : α → W → Prop) : Prop :=
  ∀ world, pre world → program.wp (rely.handler semantics thread) post world

namespace Triple

variable {β : Type} {thread : Nat} {pre : W → Prop} {program : Program S α} {post : α → W → Prop}

theorem done {value : α} (holds : ∀ world, pre world → post value world) :
    Triple rely semantics thread pre (.done value) post := holds

theorem bind {next : α → Program S β} {middle : α → W → Prop} {post : β → W → Prop}
    (first : Triple rely semantics thread pre program middle)
    (rest : ∀ value, Triple rely semantics thread (middle value) (next value) post) :
    Triple rely semantics thread pre (program >>= next) post := by
  intro world holds
  rw [Program.wp_bind]
  exact Program.wp_mono (handler_monotone rely semantics thread) program (fun value => rest value) world
    (first world holds)

theorem mono {first second : α → W → Prop}
    (triple : Triple rely semantics thread pre program first)
    (implies : ∀ value world, first value world → second value world) :
    Triple rely semantics thread pre program second := fun world holds =>
  Program.wp_mono (handler_monotone rely semantics thread) program implies world (triple world holds)

theorem pre_mono {weaker : W → Prop}
    (triple : Triple rely semantics thread weaker program post) (implies : ∀ world, pre world → weaker world) :
    Triple rely semantics thread pre program post := fun world holds => triple world (implies world holds)

/-- What the precondition says of no world in particular. -/
theorem given {fact : Prop} (known : ∀ world, pre world → fact)
    (triple : fact → Triple rely semantics thread pre program post) : Triple rely semantics thread pre program post :=
  fun world holds => triple (known world holds) world holds

theorem exists_pre {ι : Type} {holds : ι → W → Prop}
    (triple : ∀ i, Triple rely semantics thread (holds i) program post) :
    Triple rely semantics thread (fun world => ∃ i, holds i world) program post := fun world ⟨i, held⟩ =>
  triple i world held

theorem request {request : S.Request} {post : S.Reply request → W → Prop} (stable : Stable rely thread pre)
    (executes : ∀ world reply after, rely.invariant world → pre world → semantics thread world request reply after →
      rely.invariant after ∧ (∀ other, rely.together thread other → rely.rely other world after) ∧ post reply after) :
    Triple rely semantics thread pre (Program.ask request) post := by
  intro world holds now kept later reply after executed
  exact executes now reply after kept (stable world now kept later holds) executed

theorem safe (triple : Triple rely semantics thread pre program post)
    (stable : ∀ value, Stable rely thread (post value)) {world : W} (holds : pre world) :
    rely.Safe semantics thread program post world :=
  Program.wp_mono (handler_monotone rely semantics thread) program
    (fun value ended reached later kept relied => stable value ended later kept relied reached) world
    (triple world holds)

end Triple

end Rely

end RunnerScout.Interaction
