import RunnerScout.Provider.ProvenAbsence

/-! # What an interruption rests on

An observation reports an interruption only together with an absence, only for a spot
offering, and only on a signal of the cloud itself that names the virtual machine of
this allocation.
-/

namespace RunnerScout.Provider

open Interaction Lifecycle

/-- The signal of each cloud that it took the machine of an allocation away. -/
structure Signalled (p : Command) (a : Allocation) (trace : List (Exchange CloudCalls)) : Prop where
  aws : p.config.kind = "aws" → ∃ i ∈ trace.flatMap shownInstances, awsInstanceOwned p a i ∧
    (a.resourceID ≠ "" → i.instanceID = a.resourceID) ∧ i.state = some "terminated" ∧
    i.stateReason = some "Server.SpotInstanceTermination"
  azure : p.config.kind = "azure" → ∃ id, p.azureInterrupted.lookup id = some true ∧ equalFold id (azureVM p a)
  gcp : p.config.kind ≠ "aws" → p.config.kind ≠ "azure" → ∃ pages op,
    Answered trace (.gcpOperations a.offering.zone (.operationType "compute.instances.preempted")) pages ∧
      Listed pages op ∧ op.operationType = "compute.instances.preempted" ∧
      gcpMatches p op.targetLink (gcpResource p a "instances" a.id)

section Signal

variable {p : Command} {a : Allocation} {trace : List (Exchange CloudCalls)} {ob : Observation} {e : Option GoError}

theorem observeAWS_interrupted (run : (observeAWS p a).Returns trace (ob, e)) (known : ob.known)
    (interrupted : ob.interrupted) :
    a.offering.spot ∧ ∃ i ∈ trace.flatMap shownInstances, awsInstanceOwned p a i ∧
      (a.resourceID ≠ "" → i.instanceID = a.resourceID) ∧ i.state = some "terminated" ∧
      i.stateReason = some "Server.SpotInstanceTermination" := by
  obtain ⟨later, s, rfl, inventory, observed⟩ := observeAWS_returns run known
  rw [(observation_known observed (.inl known)).2.2.2.1] at interrupted
  have evidence := awsInventory_evidence inventory
  unfold AwsInventory.interrupted at interrupted
  simp only [Bool.and_eq_true] at interrupted
  obtain ⟨⟨_, spot⟩, reason⟩ := interrupted
  refine ⟨spot, ?_⟩
  cases set : s.vm with
  | none => simp [set] at reason
  | some i =>
    simp only [set, Bool.and_eq_true, decide_eq_true_eq] at reason
    obtain ⟨x, asked, among⟩ := List.mem_flatMap.mp ((evidence.instances.vm i).mpr set)
    obtain ⟨r, reserved, inside⟩ := List.mem_flatMap.mp among
    have own := (evidence.instances.own r (List.mem_flatMap.mpr ⟨x, asked, reserved⟩)).2 i inside
    exact ⟨i, List.mem_flatMap.mpr ⟨x, List.mem_cons_of_mem _ asked, among⟩, own, evidence.identity i set, reason⟩

theorem observeAzure_interrupted (run : (observeAzure p a).Returns trace (ob, e)) (known : ob.known)
    (interrupted : ob.interrupted) :
    a.offering.spot ∧ ∃ id, p.azureInterrupted.lookup id = some true ∧ equalFold id (azureVM p a) := by
  obtain ⟨_, _, _, _, observed, _, _, _, _, _, _, rfl⟩ := observeAzure_returns run known
  simp only [Bool.and_eq_true] at interrupted
  obtain ⟨⟨_, spot⟩, confirmed⟩ := interrupted
  obtain ⟨⟨id, preempted⟩, member, holds⟩ := List.any_eq_true.mp confirmed
  simp only [Bool.and_eq_true] at holds
  obtain ⟨rfl, same⟩ := holds
  exact ⟨spot, id, AList.mem_lookup_iff.mpr member, same⟩

/-- A message in the snapshot that names the machine is taken as its interruption. -/
theorem observeAzure_confirmed (run : (observeAzure p a).Returns trace (ob, e)) (known : ob.known)
    (absent : ob.present = false) (spot : a.offering.spot = true) {id : String}
    (snapshot : p.azureInterrupted.lookup id = some true) (same : equalFold id (azureVM p a) = true) :
    ob.interrupted = true := by
  obtain ⟨_, _, _, _, observed, _, _, _, _, _, _, rfl⟩ := observeAzure_returns run known
  have confirmed : azureConfirmedPreemption p a = true :=
    List.any_eq_true.mpr ⟨⟨id, true⟩, AList.mem_lookup_iff.mp snapshot, same⟩
  have gone : observed.present = false := absent
  simp [gone, spot, confirmed]

theorem azureVM_named (p : Command) (a : Allocation) : equalFold "" (azureVM p a) = false := by
  refine decide_eq_false fun same => ?_
  have lengths : "".utf8ByteSize = (azureVM p a).utf8ByteSize := by simpa using congrArg List.length same
  unfold azureVM azureID at lengths
  simp only [String.utf8ByteSize_append] at lengths
  have start : "/subscriptions/".utf8ByteSize = 15 := by decide +kernel
  have none : "".utf8ByteSize = 0 := rfl
  omega

theorem preemptedPages_found : ∀ {pages : List (Except CloudError GcpOperationList)} {found : Bool},
    preemptedPages p a pages found = true → found = true ∨ ∃ op, Listed pages op ∧ gcpPreempted p a (some op)
  | [], found, holds => .inl holds
  | .error _ :: _, found, holds => by cases holds
  | .ok page :: rest, found, holds => by
    rw [preemptedPages] at holds
    split at holds
    · cases holds
    obtain before | ⟨op, ⟨other, member, listed⟩, preempted⟩ := preemptedPages_found holds
    · obtain earlier | here := Bool.or_eq_true_iff.mp before
      · exact .inl earlier
      · obtain ⟨op, member, preempted⟩ := List.any_eq_true.mp here
        cases op with
        | none => cases preempted
        | some op => exact .inr ⟨op, ⟨page, List.mem_cons_self, member⟩, preempted⟩
    · exact .inr ⟨op, ⟨other, List.mem_cons_of_mem _ member, listed⟩, preempted⟩

theorem observeGCP_interrupted (run : (observeGCP p a).Returns trace (ob, e)) (known : ob.known)
    (interrupted : ob.interrupted) :
    a.offering.spot ∧ ∃ pages op,
      Answered trace (.gcpOperations a.offering.zone (.operationType "compute.instances.preempted")) pages ∧
        Listed pages op ∧ op.operationType = "compute.instances.preempted" ∧
        gcpMatches p op.targetLink (gcpResource p a "instances" a.id) := by
  obtain ⟨first, second, third, _, rfl, _, _, _, _, signal⟩ := observeGCP_returns run known
  obtain ⟨_, spot, confirmed⟩ := signal interrupted
  unfold gcpConfirmedPreemption at confirmed
  split at confirmed
  · simp at confirmed
  rw [Program.returns_ask] at confirmed
  obtain ⟨pages, later, rfl, ends⟩ := confirmed
  obtain ⟨rfl, found⟩ := Program.returns_pure.mp ends
  obtain none | ⟨op, listed, preempted⟩ := preemptedPages_found found.symm
  · cases none
  · simp only [gcpPreempted, Bool.and_eq_true, decide_eq_true_eq] at preempted
    exact ⟨spot, pages, op, by simp, listed, preempted⟩

/-- An interruption is observed only with an absence that is proven, and on a signal. -/
theorem observed_interruption (run : (p.observe a).Returns trace (ob, e)) (known : ob.known)
    (absent : ob.present = false) (interrupted : ob.interrupted) :
    a.offering.spot ∧ ProvenAbsent p a trace ∧ Signalled p a trace := by
  obtain ⟨kind, inner⟩ | ⟨kind, inner⟩ | ⟨notAWS, notAzure, _, inner⟩ := observe_cases run known
  · obtain ⟨spot, i, shown, signal⟩ := observeAWS_interrupted inner known interrupted
    refine ⟨spot, observe_absent run known absent fun _ _ => .inr ⟨i, shown⟩, fun _ => ⟨i, shown, signal⟩, ?_, ?_⟩ <;>
      simp [kind]
  · obtain ⟨spot, signal⟩ := observeAzure_interrupted inner known interrupted
    refine ⟨spot, observe_absent run known absent fun aws => ?_, ?_, fun _ => signal, ?_⟩ <;> simp_all
  · obtain ⟨spot, signal⟩ := observeGCP_interrupted inner known interrupted
    exact ⟨spot, observe_absent run known absent fun aws => absurd aws notAWS, fun aws => absurd aws notAWS,
      fun azure => absurd azure notAzure, fun _ _ => signal⟩

end Signal

end RunnerScout.Provider
