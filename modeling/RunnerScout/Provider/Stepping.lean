import RunnerScout.Lifecycle.Controller
import RunnerScout.Provider.Create
import RunnerScout.Provider.Delete

/-! # `Step` over the adapters

The provider calls of `Controller.Step` are the programs of `provider.Command`.  A
call is `Adapted` when its answer is one the adapter returned for some answers of the
cloud, and `Scene` is a store, a clock and a cloud in which `Step` can be run.
-/

namespace RunnerScout.Provider

open Interaction Lifecycle

/-- What the adapter of a provider runs for a call of `Step`. -/
def adapterCall (command : String → Command) : (request : Request) → Option (Program AdapterCalls (Reply request))
  | .create name a => some ((command name).create a)
  | .createWithResources name a => some ((command name).createWithResources a)
  | .observe name a => some (reading ((command name).observe a))
  | .reconcileCreation name a => some (reading ((command name).reconcileCreation a))
  | .delete name a => some ((command name).delete a)
  | .load _ | .save _ _ | .now | .deregisterRunner _ => none

/-- A call that an adapter answered, over a cloud that answers as `cloud` says. -/
def Adapted (command : String → Command) (cloud : Exchange AdapterCalls → Prop) (x : Exchange Calls) : Prop :=
  ∀ program, adapterCall command x.request = some program →
    ∃ trace, program.Returns trace x.reply ∧ ∀ y ∈ trace, cloud y

/-! ## Running it -/

/-- The record of an allocation, the time, and a cloud with a state of its own. -/
structure Scene (σ : Type) where
  record : Allocation
  now : Time
  cloud : σ

section Scene

variable {σ : Type} (command : String → Command)
  (cloud : (request : AdapterRequest) → σ → AdapterReply request × σ)

/-- An adapter is run against the cloud. -/
def Scene.consult {α : Type} (program : Program AdapterCalls α) (s : Scene σ) : α × Scene σ :=
  let (_, value, after) := program.converse cloud s.cloud
  (value, { s with cloud := after })

/-- Every save over the current revision succeeds, and so does every deregistration. -/
def Scene.answer (s : Scene σ) : (request : Request) → Reply request × Scene σ
  | .load _ => (.ok s.record, s)
  | .save x revision =>
    if revision = s.record.revision then
      let stored := { x with revision := s.record.revision + 1 }
      (.ok stored, { s with record := stored })
    else (.error errConflict, s)
  | .now => (s.now, s)
  | .deregisterRunner _ => (none, s)
  | .create name a => s.consult cloud ((command name).create a)
  | .createWithResources name a => s.consult cloud ((command name).createWithResources a)
  | .observe name a => s.consult cloud (reading ((command name).observe a))
  | .reconcileCreation name a => s.consult cloud (reading ((command name).reconcileCreation a))
  | .delete name a => s.consult cloud ((command name).delete a)

/-- The providers of a scene are its adapters. -/
theorem Scene.answer_adapted {property : Exchange AdapterCalls → Prop} (request : Request) (s : Scene σ)
    (fits : ∀ program, adapterCall command request = some program →
      ∀ y ∈ (program.converse cloud s.cloud).1, property y) :
    Adapted command property ⟨request, (s.answer command cloud request).1⟩ := by
  intro program call
  refine ⟨_, ?_, fits program call⟩
  cases request with
  | load | save | now | deregisterRunner => cases call
  | create | createWithResources | observe | reconcileCreation | delete =>
    cases call
    exact Program.returns_converse (S := AdapterCalls) cloud _ s.cloud

/-- One `Step` after another. -/
def Scene.steps (c : Controller) : Nat → Scene σ → Scene σ
  | 0, s => s
  | n + 1, s => Scene.steps c n ((c.step s.record.id).converse (fun request s => s.answer command cloud request) s).2.2

end Scene

end RunnerScout.Provider
