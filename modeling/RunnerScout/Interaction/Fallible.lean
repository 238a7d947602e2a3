import RunnerScout.Interaction.Trace

/-! # Programs that may fail

`Attempt` is the programs of a signature with an error that ends them early.  What a
run that went through has done is read off part by part, as for plain programs; a run
that has come to a request went through in every part before it.
-/

namespace RunnerScout.Interaction

/-- A program that returns a value or an error. -/
abbrev Attempt (S : Signature) (ε α : Type) := ExceptT ε (Program S) α

namespace Attempt

variable {S : Signature} {ε α β : Type}

/-- A request whose reply is already a value or an error. -/
def of (program : Program S (Except ε α)) : Attempt S ε α := ExceptT.mk program

/-- A request that cannot fail. -/
def lift (program : Program S α) : Attempt S ε α := ExceptT.lift program

/-- A result that needs no request. -/
def result (value : Except ε α) : Attempt S ε α := ExceptT.mk (pure value)

/-- Every error of the program is reported as this one. -/
def orElse (program : Attempt S ε α) (e : ε) : Attempt S ε α :=
  ExceptT.mk (program.run >>= fun result =>
    match result with
    | .error _ => pure (.error e)
    | .ok value => pure (.ok value))

theorem run_bind (program : Attempt S ε α) (next : α → Attempt S ε β) :
    (program >>= next).run = program.run >>= fun result =>
      match result with
      | .error e => pure (.error e)
      | .ok value => (next value).run := by
  show program.run >>= _ = _
  congr 1
  funext result
  cases result <;> rfl

theorem run_orElse (program : Attempt S ε α) (e : ε) :
    (program.orElse e).run = program.run >>= fun result =>
      match result with
      | .error _ => pure (.error e)
      | .ok value => pure (.ok value) := rfl

theorem run_lift (program : Program S α) :
    (lift program : Attempt S ε α).run = program >>= fun value => pure (.ok value) := rfl

section Returns

variable {trace : List (Exchange S)}

theorem returns_of {program : Program S (Except ε α)} {result : Except ε α} :
    (of program).run.Returns trace result ↔ program.Returns trace result :=
  Iff.rfl

theorem returns_bind_ok {program : Attempt S ε α} {next : α → Attempt S ε β} {result : β} :
    (program >>= next).run.Returns trace (.ok result) ↔
      ∃ first second value, trace = first ++ second ∧ program.run.Returns first (.ok value) ∧
        (next value).run.Returns second (.ok result) := by
  rw [run_bind, Program.returns_bind]
  constructor
  · rintro ⟨first, second, value, rfl, runs, ends⟩
    cases value with
    | error e =>
      obtain ⟨_, ⟨⟩⟩ := Program.returns_pure.mp ends
    | ok value => exact ⟨first, second, value, rfl, runs, ends⟩
  · rintro ⟨first, second, value, rfl, runs, ends⟩
    exact ⟨first, second, .ok value, rfl, runs, ends⟩

theorem returns_pure_ok {value result : α} :
    (pure value : Attempt S ε α).run.Returns trace (.ok result) ↔ trace = [] ∧ result = value := by
  show (Program.done (Except.ok value : Except ε α)).Returns trace (.ok result) ↔ _
  rw [Program.returns_done, Except.ok.injEq]

theorem returns_result_ok {value : Except ε α} {result : α} :
    (Attempt.result value : Attempt S ε α).run.Returns trace (.ok result) ↔ trace = [] ∧ value = .ok result := by
  show (Program.done value).Returns trace (.ok result) ↔ _
  rw [Program.returns_done, eq_comm (a := value)]

theorem not_returns_throw {e : ε} {result : α} :
    ¬ (throw e : Attempt S ε α).run.Returns trace (Except.ok result) := by
  intro run
  obtain ⟨_, ⟨⟩⟩ := Program.returns_done.mp
    (show (Program.done (Except.error e : Except ε α)).Returns trace (.ok result) from run)

theorem returns_orElse_ok {program : Attempt S ε α} {e : ε} {result : α} :
    (program.orElse e).run.Returns trace (.ok result) ↔ program.run.Returns trace (.ok result) := by
  rw [run_orElse, Program.returns_bind]
  constructor
  · rintro ⟨first, second, value, rfl, runs, ends⟩
    cases value with
    | error e =>
      obtain ⟨_, ⟨⟩⟩ := Program.returns_pure.mp ends
    | ok value =>
      obtain ⟨rfl, same⟩ := Program.returns_pure.mp ends
      cases same
      rwa [List.append_nil]
  · intro runs
    exact ⟨trace, [], .ok result, (List.append_nil _).symm, runs, Program.returns_pure.mpr ⟨rfl, rfl⟩⟩

theorem returns_lift_ok {program : Program S α} {result : α} :
    (lift program : Attempt S ε α).run.Returns trace (.ok result) ↔ program.Returns trace result := by
  rw [run_lift, Program.returns_bind]
  constructor
  · rintro ⟨first, second, value, rfl, runs, ends⟩
    obtain ⟨rfl, same⟩ := Program.returns_pure.mp ends
    cases same
    rwa [List.append_nil]
  · intro runs
    exact ⟨trace, [], result, (List.append_nil _).symm, runs, Program.returns_pure.mpr ⟨rfl, rfl⟩⟩

end Returns

end Attempt

end RunnerScout.Interaction
