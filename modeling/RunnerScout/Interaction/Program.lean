import Mathlib.Logic.Basic

/-! # Programs that talk to their surroundings

A program is the tree of everything it may ask for: at each node one request,
and a continuation for every reply it may get back.  A crash between two
requests is then simply a program that is never resumed, and an interleaving of
several programs is a choice, at every moment, of the one that is resumed next.

`Program.wp` reads a program against a `Handler`, the predicate transformer of
one request.  The two handlers this development uses are a protocol (which
request may follow which) and a shared world under interference
(`Interaction.Concurrency`).
-/

namespace RunnerScout.Interaction

/-- What a program may ask for, and the type of each answer. -/
structure Signature where
  Request : Type
  Reply : Request → Type

inductive Program (S : Signature) (α : Type) : Type where
  | done (value : α)
  | call (request : S.Request) (next : S.Reply request → Program S α)

namespace Program

variable {S T : Signature} {α β γ : Type}

def bind : Program S α → (α → Program S β) → Program S β
  | .done value, next => next value
  | .call request rest, next => .call request fun reply => (rest reply).bind next

instance : Monad (Program S) where
  pure := .done
  bind := bind

/-- One request, answered by its own reply. -/
def ask (request : S.Request) : Program S (S.Reply request) := .call request .done

@[simp] theorem pure_eq_done (value : α) : (pure value : Program S α) = .done value := rfl

@[simp] theorem done_bind (value : α) (next : α → Program S β) :
    (Program.done value >>= next) = next value := rfl

@[simp] theorem call_bind (request : S.Request) (rest : S.Reply request → Program S α)
    (next : α → Program S β) :
    (Program.call request rest >>= next) = .call request fun reply => rest reply >>= next := rfl

@[simp] theorem ask_bind (request : S.Request) (next : S.Reply request → Program S β) :
    (ask request >>= next) = .call request next := rfl

/-- Replace every request by a program over another signature. -/
def interpret (implementation : (request : S.Request) → Program T (S.Reply request)) :
    Program S α → Program T α
  | .done value => .done value
  | .call request next =>
    (implementation request).bind fun reply => (next reply).interpret implementation

end Program

/-! ## Predicate transformers -/

/-- The predicate transformer of one request: from a condition on the reply and
    the world it arrives in, the condition under which the request may be made. -/
abbrev Handler (S : Signature) (W : Type) :=
  (request : S.Request) → (S.Reply request → W → Prop) → W → Prop

def Handler.Monotone {S : Signature} {W : Type} (handler : Handler S W) : Prop :=
  ∀ request (first second : S.Reply request → W → Prop) world,
    (∀ reply after, first reply after → second reply after) →
    handler request first world → handler request second world

def Program.wp {S : Signature} {W α : Type} (handler : Handler S W) :
    Program S α → (α → W → Prop) → W → Prop
  | .done value, post, world => post value world
  | .call request next, post, world =>
    handler request (fun reply after => (next reply).wp handler post after) world

namespace Program

variable {S T : Signature} {W V α β : Type} {handler : Handler S W}

@[simp] theorem wp_done (value : α) (post : α → W → Prop) (world : W) :
    (Program.done value : Program S α).wp handler post world = post value world := rfl

@[simp] theorem wp_call (request : S.Request) (next : S.Reply request → Program S α)
    (post : α → W → Prop) (world : W) :
    (Program.call request next).wp handler post world =
      handler request (fun reply after => (next reply).wp handler post after) world := rfl

theorem wp_bind (program : Program S α) (next : α → Program S β) (post : β → W → Prop) (world : W) :
    (program >>= next).wp handler post world =
      program.wp handler (fun value after => (next value).wp handler post after) world := by
  induction program generalizing world with
  | done value => rfl
  | call request rest ih =>
    simp only [call_bind, wp_call]
    congr 1
    funext reply after
    exact ih reply after

theorem wp_mono (monotone : handler.Monotone) (program : Program S α) {first second : α → W → Prop}
    (implies : ∀ value after, first value after → second value after) (world : W)
    (holds : program.wp handler first world) : program.wp handler second world := by
  induction program generalizing world with
  | done value => exact implies value world holds
  | call request next ih =>
    exact monotone request _ _ world (fun reply after => ih reply after) holds

/-- Carry a fact proved against one handler over to another, along a relation
    between their worlds that every request keeps. -/
theorem wp_simulate {abstract : Handler S V} {concrete : Handler S W} (related : V → W → Prop)
    (step : ∀ request view world, related view world →
      ∀ (first : S.Reply request → V → Prop) (second : S.Reply request → W → Prop),
        (∀ reply nextView after, related nextView after → first reply nextView → second reply after) →
        abstract request first view → concrete request second world)
    (program : Program S α) {first : α → V → Prop} {second : α → W → Prop}
    (implies : ∀ value view world, related view world → first value view → second value world)
    {view : V} {world : W} (start : related view world) (holds : program.wp abstract first view) :
    program.wp concrete second world := by
  induction program generalizing view world with
  | done value => exact implies value view world start holds
  | call request next ih =>
    exact step request view world start _ _
      (fun reply nextView after link rest => ih reply link rest) holds

end Program

/-! ## Protocols -/

/-- Which request a program may make next, seen from what it has asked and been
    told so far, and which replies it may count on. -/
structure Protocol (S : Signature) (V : Type) where
  allowed : V → S.Request → Prop
  answers : (request : S.Request) → S.Reply request → Prop
  next : V → (request : S.Request) → S.Reply request → V

def Protocol.handler {S : Signature} {V : Type} (protocol : Protocol S V) : Handler S V :=
  fun request post view =>
    protocol.allowed view request ∧
      ∀ reply, protocol.answers request reply → post reply (protocol.next view request reply)

/-- Every run of `program` from `view` keeps to the protocol and ends in `post`. -/
def Program.Follows {S : Signature} {V α : Type} (program : Program S α) (protocol : Protocol S V)
    (view : V) (post : α → V → Prop) : Prop :=
  program.wp protocol.handler post view

namespace Program.Follows

variable {S : Signature} {V α β : Type} {protocol : Protocol S V} {view : V}

theorem done {value : α} {post : α → V → Prop} (holds : post value view) :
    (Program.done value : Program S α).Follows protocol view post := holds

theorem call {request : S.Request} {next : S.Reply request → Program S α} {post : α → V → Prop}
    (allowed : protocol.allowed view request)
    (rest : ∀ reply, protocol.answers request reply →
      (next reply).Follows protocol (protocol.next view request reply) post) :
    (Program.call request next).Follows protocol view post := ⟨allowed, rest⟩

theorem bind {program : Program S α} {next : α → Program S β} {post : β → V → Prop}
    (follows : program.Follows protocol view fun value after => (next value).Follows protocol after post) :
    (program >>= next).Follows protocol view post := by
  rw [Follows, wp_bind]
  exact follows

/-- The usual shape of one step of a proof: a request, and what is done with its reply. -/
theorem request {request : S.Request} {next : S.Reply request → Program S β} {post : β → V → Prop}
    (allowed : protocol.allowed view request)
    (rest : ∀ reply, protocol.answers request reply →
      (next reply).Follows protocol (protocol.next view request reply) post) :
    (Program.ask request >>= next).Follows protocol view post := ⟨allowed, rest⟩

theorem mono {program : Program S α} {first second : α → V → Prop}
    (follows : program.Follows protocol view first)
    (implies : ∀ value after, first value after → second value after) :
    program.Follows protocol view second :=
  wp_mono (fun _ _ _ _ carry holds => ⟨holds.1, fun reply answered => carry reply _ (holds.2 reply answered)⟩)
    program implies view follows

end Program.Follows

end RunnerScout.Interaction
