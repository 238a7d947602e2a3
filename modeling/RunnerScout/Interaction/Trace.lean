import RunnerScout.Interaction.Program

/-! # What a program asked and was told

A trace lists the exchanges of one run of a program, the first one first.  A program
performs a trace when it makes these requests in this order and goes on from the
last reply; it returns a value when nothing is left to ask.  Any reply is possible:
what is true of every trace holds whatever the surroundings do, and also of a run
that stops halfway.
-/

namespace RunnerScout.Interaction

/-- One request with its reply. -/
structure Exchange (S : Signature) where
  request : S.Request
  reply : S.Reply request

namespace Program

variable {S : Signature} {α β : Type}

/-- A run of a program over some exchanges, up to the program it goes on as. -/
inductive Performs : Program S α → List (Exchange S) → Program S α → Prop where
  | start (program : Program S α) : Performs program [] program
  | exchange {request : S.Request} {next : S.Reply request → Program S α} (reply : S.Reply request)
      {later : List (Exchange S)} {rest : Program S α} (goesOn : Performs (next reply) later rest) :
      Performs (.call request next) (⟨request, reply⟩ :: later) rest

/-- A whole run. -/
def Returns (program : Program S α) (trace : List (Exchange S)) (value : α) : Prop :=
  program.Performs trace (.done value)

variable {trace : List (Exchange S)} {program : Program S α} {request : S.Request}

/-! ## Whole runs -/

@[simp] theorem returns_done {value result : α} :
    (Program.done value).Returns trace result ↔ trace = [] ∧ result = value := by
  constructor
  · intro run
    cases run
    exact ⟨rfl, rfl⟩
  · rintro ⟨rfl, rfl⟩
    exact .start _

@[simp] theorem returns_pure {value result : α} :
    (pure value : Program S α).Returns trace result ↔ trace = [] ∧ result = value :=
  returns_done

theorem Returns.of_pure {value result : α} (run : (pure value : Program S α).Returns trace result) : result = value :=
  (returns_pure.mp run).2

theorem returns_call {next : S.Reply request → Program S α}
    {result : α} : (Program.call request next).Returns trace result ↔
      ∃ reply later, trace = ⟨request, reply⟩ :: later ∧ (next reply).Returns later result := by
  constructor
  · intro run
    cases run with
    | exchange reply goesOn => exact ⟨reply, _, rfl, goesOn⟩
  · rintro ⟨reply, later, rfl, run⟩
    exact .exchange reply run

/-- A run of one program after another. -/
theorem returns_bind {next : α → Program S β} {result : β} :
    (program >>= next).Returns trace result ↔
      ∃ first second value, trace = first ++ second ∧ program.Returns first value ∧
        (next value).Returns second result := by
  induction program generalizing trace with
  | done value =>
    constructor
    · exact fun run => ⟨[], trace, value, rfl, .start _, run⟩
    · rintro ⟨first, second, value, rfl, runs, ends⟩
      obtain ⟨rfl, rfl⟩ := returns_done.mp runs
      exact ends
  | call request rest ih =>
    rw [call_bind, returns_call]
    constructor
    · rintro ⟨reply, later, rfl, run⟩
      obtain ⟨first, second, value, rfl, runs, ends⟩ := (ih reply).mp run
      exact ⟨_, second, value, rfl, .exchange reply runs, ends⟩
    · rintro ⟨first, second, value, rfl, runs, ends⟩
      obtain ⟨reply, later, rfl, run⟩ := returns_call.mp runs
      exact ⟨reply, later ++ second, rfl, (ih reply).mpr ⟨later, second, value, rfl, run, ends⟩⟩

/-- The usual shape of one step of a run: a request, and what is done with its reply. -/
theorem returns_ask {next : S.Reply request → Program S β}
    {result : β} : (Program.ask request >>= next).Returns trace result ↔
      ∃ reply later, trace = ⟨request, reply⟩ :: later ∧ (next reply).Returns later result :=
  returns_call

/-! ## Unfinished runs -/

/-- A run that has come to a request. -/
def Reaches (program : Program S α) (trace : List (Exchange S)) (request : S.Request) : Prop :=
  ∃ next, program.Performs trace (.call request next)

theorem not_reaches_done {value : α} :
    ¬ (Program.done value).Reaches trace request := by
  rintro ⟨next, run⟩
  cases run

theorem reaches_call {asked request : S.Request} {next : S.Reply asked → Program S α}
    (run : (Program.call asked next).Reaches trace request) :
    (trace = [] ∧ request = asked) ∨
      ∃ reply later, trace = ⟨asked, reply⟩ :: later ∧ (next reply).Reaches later request := by
  obtain ⟨rest, run⟩ := run
  cases run with
  | start => exact .inl ⟨rfl, rfl⟩
  | exchange reply goesOn => exact .inr ⟨reply, _, rfl, rest, goesOn⟩

theorem reaches_ask {asked request : S.Request} {next : S.Reply asked → Program S α}
    (run : (Program.ask asked >>= next).Reaches trace request) :
    (trace = [] ∧ request = asked) ∨
      ∃ reply later, trace = ⟨asked, reply⟩ :: later ∧ (next reply).Reaches later request :=
  reaches_call run

/-- Every request of a run was reached. -/
theorem Performs.reaches {program rest : Program S α} {trace first second : List (Exchange S)} {x : Exchange S}
    (run : program.Performs trace rest) (splits : trace = first ++ x :: second) : program.Reaches first x.request := by
  induction run generalizing first with
  | start => exact absurd splits.symm (List.append_ne_nil_of_right_ne_nil _ (List.cons_ne_nil _ _))
  | exchange reply _ ih =>
    cases first with
    | nil =>
      cases splits
      exact ⟨_, .start _⟩
    | cons y first =>
      cases splits
      obtain ⟨next, reached⟩ := ih rfl
      exact ⟨next, .exchange reply reached⟩

theorem reaches_bind {next : α → Program S β}
    (run : (program >>= next).Reaches trace request) :
    program.Reaches trace request ∨ ∃ first second value, trace = first ++ second ∧ program.Returns first value ∧
      (next value).Reaches second request := by
  induction program generalizing trace with
  | done value => exact .inr ⟨[], trace, value, rfl, .start _, run⟩
  | call asked rest ih =>
    obtain ⟨rfl, rfl⟩ | ⟨reply, later, rfl, goesOn⟩ := reaches_call run
    · exact .inl ⟨rest, .start _⟩
    · obtain ⟨inner, reached⟩ | ⟨first, second, value, rfl, runs, ends⟩ := ih reply goesOn
      · exact .inl ⟨inner, .exchange reply reached⟩
      · exact .inr ⟨_, second, value, rfl, .exchange reply runs, ends⟩

/-! ## Programs that ask for one kind of thing -/

/-- Whatever the replies, every request is one of `allowed`. -/
def Only (allowed : S.Request → Prop) : Program S α → Prop
  | .done _ => True
  | .call request next => allowed request ∧ ∀ reply, (next reply).Only allowed

theorem only_ask {allowed : S.Request → Prop} {next : S.Reply request → Program S β} :
    (Program.ask request >>= next).Only allowed ↔ allowed request ∧ ∀ reply, (next reply).Only allowed :=
  Iff.rfl

theorem Only.bind {allowed : S.Request → Prop} {next : α → Program S β}
    (first : program.Only allowed) (rest : ∀ value, (next value).Only allowed) : (program >>= next).Only allowed := by
  induction program with
  | done value => exact rest value
  | call request goesOn ih => exact ⟨first.1, fun reply => ih reply (first.2 reply)⟩

theorem Only.interpret {T : Signature} {allowed : T.Request → Prop}
    {implementation : (request : S.Request) → Program T (S.Reply request)}
    (only : ∀ request, (implementation request).Only allowed) : (program.interpret implementation).Only allowed := by
  induction program with
  | done value => trivial
  | call request next ih => exact .bind (only request) ih

theorem Only.performs {allowed : S.Request → Prop} {program rest : Program S α}
    (only : program.Only allowed) (run : program.Performs trace rest) :
    (∀ x ∈ trace, allowed x.request) ∧ rest.Only allowed := by
  induction run with
  | start => exact ⟨by simp, only⟩
  | exchange reply _ ih =>
    obtain ⟨later, rest⟩ := ih (only.2 reply)
    exact ⟨List.forall_mem_cons.mpr ⟨only.1, later⟩, rest⟩

theorem Only.reaches {allowed : S.Request → Prop}
    (only : program.Only allowed) (run : program.Reaches trace request) : allowed request := by
  obtain ⟨next, performs⟩ := run
  exact (only.performs performs).2.1

/-! ## Fixed surroundings -/

/-- The run of a program whose requests are answered by a function. -/
def respond (oracle : (request : S.Request) → S.Reply request) : Program S α → List (Exchange S) × α
  | .done value => ([], value)
  | .call request next =>
    let (later, value) := (next (oracle request)).respond oracle
    (⟨request, oracle request⟩ :: later, value)

theorem returns_respond (oracle : (request : S.Request) → S.Reply request) (program : Program S α) :
    program.Returns (program.respond oracle).1 (program.respond oracle).2 := by
  induction program with
  | done value => exact .start _
  | call request next ih => exact .exchange (oracle request) (ih (oracle request))

/-- The run of a program in surroundings with a state of their own. -/
def converse {σ : Type} (oracle : (request : S.Request) → σ → S.Reply request × σ) :
    Program S α → σ → List (Exchange S) × α × σ
  | .done value, s => ([], value, s)
  | .call request next, s =>
    let (reply, s) := oracle request s
    let (later, result) := (next reply).converse oracle s
    (⟨request, reply⟩ :: later, result)

theorem returns_converse {σ : Type} (oracle : (request : S.Request) → σ → S.Reply request × σ) :
    ∀ (program : Program S α) (s : σ),
      program.Returns (program.converse oracle s).1 (program.converse oracle s).2.1
  | .done _, _ => .start _
  | .call request next, s =>
    .exchange _ (returns_converse oracle (next (oracle request s).1) (oracle request s).2)

theorem forall_mem_converse {σ : Type} {oracle : (request : S.Request) → σ → S.Reply request × σ}
    (property : Exchange S → Prop) (answers : ∀ request s, property ⟨request, (oracle request s).1⟩) :
    ∀ (program : Program S α) (s : σ), ∀ x ∈ (program.converse oracle s).1, property x
  | .done _, _ => nofun
  | .call request next, s =>
    List.forall_mem_cons.mpr ⟨answers request s, forall_mem_converse property answers (next (oracle request s).1) _⟩

/-- The first requests of that run, and the program it goes on as. -/
def proceed (oracle : (request : S.Request) → S.Reply request) : Nat → Program S α → List (Exchange S) × Program S α
  | 0, program => ([], program)
  | _ + 1, .done value => ([], .done value)
  | n + 1, .call request next =>
    let (later, rest) := proceed oracle n (next (oracle request))
    (⟨request, oracle request⟩ :: later, rest)

theorem performs_proceed (oracle : (request : S.Request) → S.Reply request) :
    ∀ (n : Nat) (program : Program S α), program.Performs (program.proceed oracle n).1 (program.proceed oracle n).2
  | 0, program => .start program
  | _ + 1, .done _ => .start _
  | n + 1, .call request next => .exchange (oracle request) (performs_proceed oracle n (next (oracle request)))

def asked : Program S α → Option S.Request
  | .done _ => none
  | .call request _ => some request

theorem reaches_proceed {oracle : (request : S.Request) → S.Reply request} {n : Nat}
    (next : (program.proceed oracle n).2.asked = some request) :
    program.Reaches (program.proceed oracle n).1 request := by
  have run := performs_proceed oracle n program
  cases rest : (program.proceed oracle n).2 with
  | done value =>
    rw [rest] at next
    cases next
  | call current goesOn =>
    rw [rest] at next run
    cases next
    exact ⟨goesOn, run⟩

end Program

/-! ## Protocols -/

section Protocols

variable {S : Signature} {V α : Type} {protocol : Protocol S V}

/-- The view after some exchanges. -/
def Protocol.after (protocol : Protocol S V) (view : V) : List (Exchange S) → V
  | [] => view
  | x :: later => protocol.after (protocol.next view x.request x.reply) later

/-- A program that keeps to a protocol only asks for what the view then allows. -/
theorem Program.Follows.reaches {program : Program S α} {view : V} {post : α → V → Prop}
    (follows : program.Follows protocol view post) {trace : List (Exchange S)} {request : S.Request}
    (run : program.Reaches trace request) (answered : ∀ x ∈ trace, protocol.answers x.request x.reply) :
    protocol.allowed (protocol.after view trace) request := by
  induction program generalizing view trace with
  | done value => exact absurd run Program.not_reaches_done
  | call asked next ih =>
    obtain ⟨allowed, rest⟩ := follows
    obtain ⟨rfl, rfl⟩ | ⟨reply, later, rfl, goesOn⟩ := Program.reaches_call run
    · exact allowed
    · obtain ⟨honest, others⟩ := List.forall_mem_cons.mp answered
      exact ih reply (rest reply honest) goesOn others

/-- The protocol that only restricts what may be asked. -/
def Protocol.only (allowed : S.Request → Prop) : Protocol S Unit where
  allowed := fun _ => allowed
  answers := fun _ _ => True
  next := fun _ _ _ => ()

/-- What follows a program that asks for allowed things only is unaffected by it. -/
theorem Program.Only.follows {allowed : S.Request → Prop} {program : Program S α} (only : program.Only allowed) :
    program.Follows (.only allowed) () fun _ _ => True := by
  induction program with
  | done value => trivial
  | call request next ih => exact ⟨only.1, fun reply _ => ih reply (only.2 reply)⟩

end Protocols

end RunnerScout.Interaction
