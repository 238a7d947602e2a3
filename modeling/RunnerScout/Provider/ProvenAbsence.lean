import RunnerScout.Provider.Adapter
import RunnerScout.Provider.AwsEvidence
import RunnerScout.Provider.Evidence

/-! # Absence is proven, never inferred

An absence is reported only for answers that leave nothing open: every recorded
dependency was asked for by its own identity and does not exist, every listing was
read to its end, and the request that would create the resources is over.  The one
gap is an answer that names the recorded instance of an allocation without showing
it.
-/

namespace RunnerScout.Provider

open Interaction Program Lifecycle

section Absent

variable (p : Command) (a : Allocation) (trace : List (Exchange CloudCalls))

structure AwsAbsent : Prop where
  recorded : ∀ reference ∈ a.resources,
    (reference.kind = "aws-volume" ∧ ∃ x ∈ trace, volumeMissing reference.id x) ∨
      (reference.kind = "aws-network-interface" ∧ ∃ x ∈ trace, interfaceMissing reference.id x)
  vm : a.resourceID ≠ "" → (∃ x ∈ trace, instanceMissing a.resourceID x) ∨
    ∃ i ∈ trace.flatMap shownInstances, i.instanceID = a.resourceID ∧ i.state = some "terminated"
  volumes : ∀ v ∈ trace.flatMap shownVolumes, ∃ x ∈ trace, volumeMissing v.volumeID x
  interfaces : ∀ n ∈ trace.flatMap shownInterfaces, ∃ x ∈ trace, interfaceMissing n.interfaceID x
  volumePages : ToTheEnd "" (trace.filterMap (volumeTokens p a))
  interfacePages : ToTheEnd "" (trace.filterMap (interfaceTokens p a))

structure AzureAbsent : Prop where
  recorded : ∀ reference ∈ a.resources, ∃ spec ∈ azureSpecs a, OnPath p reference spec
  paths : ∀ spec ∈ azureSpecs a, ∃ e,
    Answered trace (.getByID (azureID p spec.resourceType spec.name) spec.version) (.error e) ∧ azureResourceMissing e
  deployment : ∃ reply, Answered trace (.deploymentGet a.id) reply ∧ deploymentOver reply

structure GcpAbsent : Prop where
  recorded : a.resources = []
  vm : ∃ e, Answered trace (.gcpInstance a.offering.zone a.id) (.error e) ∧ missingGCP e
  disk : ∃ e, Answered trace (.gcpDisk a.offering.zone a.id) (.error e) ∧ missingGCP e
  created : a.resourceID ≠ "" ∨ ∃ pages op,
    Answered trace (.gcpOperations a.offering.zone (.clientOperation (gcpRequestID p a "create"))) pages ∧
      Listed pages op ∧ gcpCreateDone p a (some op)

/-- The answers of a call prove that nothing of the allocation exists. -/
structure ProvenAbsent : Prop where
  aws : p.config.kind = "aws" → AwsAbsent p a trace
  azure : p.config.kind = "azure" → AzureAbsent p a trace
  gcp : p.config.kind ≠ "aws" → p.config.kind ≠ "azure" → GcpAbsent p a trace

/-- Of a recorded instance of EC2 some answer says that it does not exist, or an instance
    is shown. -/
def ShowsInstance : Prop :=
  p.config.kind = "aws" → a.resourceID ≠ "" →
    (∃ x ∈ trace, instanceMissing a.resourceID x) ∨ ∃ i, i ∈ trace.flatMap shownInstances

variable {p a trace}

theorem present_false {s : AwsInventory} (absent : s.present = false) :
    (∀ i, s.vm = some i → i.state = some "terminated") ∧ (∀ id, id ∉ s.volumes) ∧ ∀ id, id ∉ s.interfaces := by
  simp only [AwsInventory.present, Bool.or_eq_false_iff, decide_eq_false_iff_not, Nat.not_lt, Nat.le_zero_eq,
    List.length_eq_zero_iff] at absent
  obtain ⟨⟨gone, volumes⟩, interfaces⟩ := absent
  refine ⟨?_, ?_, ?_⟩
  · intro i set
    simpa [set] using gone
  · intro id held
    simp [AList.mem_keys, AList.keys, volumes] at held
  · intro id held
    simp [AList.mem_keys, AList.keys, interfaces] at held

theorem AwsEvidence.absent {s : AwsInventory} (evidence : AwsEvidence p a trace s) (absent : s.present = false)
    (shows : a.resourceID ≠ "" →
      (∃ x ∈ trace, instanceMissing a.resourceID x) ∨ ∃ i, i ∈ trace.flatMap shownInstances) : AwsAbsent p a trace := by
  obtain ⟨terminated, noVolume, noInterface⟩ := present_false absent
  refine ⟨?_, ?_, ?_, ?_, evidence.volumePages, evidence.interfacePages⟩
  · intro reference member
    obtain ⟨kind, held | missing⟩ | ⟨kind, held | missing⟩ := evidence.recorded reference member
    · exact absurd held (noVolume _)
    · exact .inl ⟨kind, missing⟩
    · exact absurd held (noInterface _)
    · exact .inr ⟨kind, missing⟩
  · intro recorded
    refine (shows recorded).imp_right fun ⟨i, shown⟩ => ?_
    have set := (evidence.instances.vm i).mp shown
    exact ⟨i, shown, evidence.identity i set recorded, terminated i set⟩
  · intro v member
    exact (evidence.volumes.rest v member).resolve_left (noVolume _)
  · intro n member
    exact (evidence.interfaces.rest n member).resolve_left (noInterface _)

theorem AwsAbsent.later {x : Exchange CloudCalls} (absent : AwsAbsent p a trace) (silent : shownReservations x = [])
    (volumes : shownVolumes x = []) (interfaces : shownInterfaces x = []) (volumePage : volumeTokens p a x = none)
    (interfacePage : interfaceTokens p a x = none) : AwsAbsent p a (x :: trace) := by
  have asked {missing : Exchange CloudCalls → Bool} (before : ∃ y ∈ trace, missing y) : ∃ y ∈ x :: trace, missing y := by
    obtain ⟨y, member, gone⟩ := before
    exact ⟨y, List.mem_cons_of_mem _ member, gone⟩
  refine ⟨?_, ?_, ?_, ?_, ?_, ?_⟩
  · intro reference member
    exact (absent.recorded reference member).imp (fun ⟨kind, gone⟩ => ⟨kind, asked gone⟩)
      fun ⟨kind, gone⟩ => ⟨kind, asked gone⟩
  · intro recorded
    refine (absent.vm recorded).imp asked fun ⟨i, shown, facts⟩ => ⟨i, ?_, facts⟩
    simpa [shownInstances, silent] using shown
  · simpa [volumes] using fun v shown => asked (absent.volumes v shown)
  · simpa [interfaces] using fun n shown => asked (absent.interfaces n shown)
  · simpa [volumePage] using absent.volumePages
  · simpa [interfacePage] using absent.interfacePages

end Absent

section Observe

variable {p : Command} {a : Allocation} {trace : List (Exchange CloudCalls)} {ob : Observation} {e : Option GoError}

theorem observeAWS_absent (run : (observeAWS p a).Returns trace (ob, e)) (known : ob.known)
    (absent : ob.present = false) (kind : p.config.kind = "aws") (shows : ShowsInstance p a trace) :
    AwsAbsent p a trace := by
  obtain ⟨later, s, rfl, inventory, observed⟩ := observeAWS_returns run known
  have nothing : s.present = false := (observation_known observed (.inl known)).2.2.1.symm.trans absent
  have evidence := awsInventory_evidence inventory
  have shows := shows kind
  simp only [List.exists_mem_cons_iff, instanceMissing, Bool.false_eq_true, false_or, List.flatMap_cons,
    shownInstances, shownReservations, List.flatMap_nil, List.nil_append] at shows
  exact (evidence.absent nothing shows).later rfl rfl rfl rfl rfl

theorem observeAzure_absent (run : (observeAzure p a).Returns trace (ob, e)) (known : ob.known)
    (absent : ob.present = false) : AzureAbsent p a trace := by
  obtain ⟨reply, later, references, resources, observed, rfl, finished, recorded, inventory, observes, _, rfl⟩ :=
    observeAzure_returns run known
  have empty : resources = [] := by
    have none := (azureObservation_ok observes).symm.trans absent
    simpa using none
  subst empty
  obtain ⟨_, pages, reads, _, rfl, read⟩ := azureInventory_returns inventory
  refine ⟨fun r member => ((azureReferences_ok recorded).1 r member).2.2, ?_, reply, List.mem_cons_self, finished⟩
  intro spec member
  obtain ⟨e, answered, missing⟩ := read.all_missing spec member
  exact ⟨e, List.mem_cons_of_mem _ (List.mem_cons_of_mem _ answered), missing⟩

theorem observeGCP_absent (run : (observeGCP p a).Returns trace (ob, e)) (known : ob.known)
    (absent : ob.present = false) (recorded : a.resources = []) : GcpAbsent p a trace := by
  obtain ⟨first, second, third, ⟨vm, disk⟩, rfl, created, inventory, _, present, _⟩ := observeGCP_returns run known
  have nothing : vm = none ∧ disk = none := by simpa using present.symm.trans absent
  obtain ⟨rfl, rfl⟩ := nothing
  obtain ⟨vmReply, diskReply, rfl, readVM, readDisk⟩ := gcpInventory_returns inventory
  obtain ⟨vmError, rfl, noVM⟩ := gcpVM_none readVM
  obtain ⟨diskError, rfl, noDisk⟩ := gcpDisk_none readDisk
  obtain ⟨pages, rfl, committed⟩ := gcpCreateTerminal_returns created
  refine ⟨recorded, ⟨vmError, by simp, noVM⟩, ⟨diskError, by simp, noDisk⟩, ?_⟩
  obtain ⟨op, listed, done⟩ | identity := committed
  · exact .inr ⟨pages, op, by simp, listed, done⟩
  · exact .inl identity

/-- What is known was observed by the adapter of one cloud. -/
theorem observe_cases (run : (p.observe a).Returns trace (ob, e)) (known : ob.known) :
    (p.config.kind = "aws" ∧ (observeAWS p a).Returns trace (ob, e)) ∨
      (p.config.kind = "azure" ∧ (observeAzure p a).Returns trace (ob, e)) ∨
      (p.config.kind ≠ "aws" ∧ p.config.kind ≠ "azure" ∧ a.resources = [] ∧ (observeGCP p a).Returns trace (ob, e)) := by
  have unknown {failed : GoError} (run : (pure ({}, some failed) : Program CloudCalls _).Returns trace (ob, e)) :
      False := by
    cases run.of_pure
    cases known
  unfold Command.observe at run
  split at run
  · exact (unknown run).elim
  rename_i supported
  split at run
  · exact (unknown run).elim
  split at run
  · exact (unknown run).elim
  split at run
  · rename_i kind
    exact .inl ⟨kind, run⟩
  rename_i notAWS
  split at run
  · rename_i kind
    exact .inr (.inl ⟨kind, run⟩)
  rename_i notAzure
  exact .inr (.inr ⟨notAWS, notAzure, by simpa [notAWS, notAzure] using supported, run⟩)

theorem observe_absent (run : (p.observe a).Returns trace (ob, e)) (known : ob.known) (absent : ob.present = false)
    (shows : ShowsInstance p a trace) : ProvenAbsent p a trace := by
  obtain ⟨kind, run⟩ | ⟨kind, run⟩ | ⟨notAWS, notAzure, recorded, run⟩ := observe_cases run known
  · refine ⟨fun _ => observeAWS_absent run known absent kind shows, ?_, ?_⟩ <;> simp [kind]
  · refine ⟨?_, fun _ => observeAzure_absent run known absent, ?_⟩ <;> simp [kind]
  · exact ⟨fun kind => absurd kind notAWS, fun kind => absurd kind notAzure,
      fun _ _ => observeGCP_absent run known absent recorded⟩

/-- The answers of a call that observes an absence prove it if and only if a recorded
    instance is not left out of them. -/
theorem observed_absence_proven (run : (p.observe a).Returns trace (ob, e)) (known : ob.known)
    (absent : ob.present = false) : ProvenAbsent p a trace ↔ ShowsInstance p a trace := by
  refine ⟨fun proven kind recorded => ?_, observe_absent run known absent⟩
  exact ((proven.aws kind).vm recorded).imp_right fun ⟨i, shown, _⟩ => ⟨i, shown⟩

end Observe

/-! ## A recorded instance that is gone, and one that is only left out -/

def awsCommand : Command where
  config :=
    { kind := "aws", accountID := "123456789012", subnet := "subnet-1", securityGroup := "sg-1",
      owner := "runnerscout" }

def azureCommand : Command where
  config :=
    { kind := "azure", subscription := "s", resourceGroup := "g", sshPublicKey := "ssh-ed25519 A",
      subnet := "subnet-1", securityGroup := "sg-1", owner := "runnerscout" }

def committedRecord : Allocation where
  id := "runner-1"
  revision := 2
  phase := .creating
  offering := { id := "pool", region := "us-east-1", zone := "us-east-1a" }

def launched : AwsInstance where
  instanceID := "i-1"
  clientToken := "runner-1"
  tags := [⟨"runnerscout-owner", "runnerscout"⟩, ⟨"runnerscout-operation", "runner-1"⟩]
  zone := some "us-east-1a"
  subnetID := "subnet-1"
  state := some "pending"

def recordedInstance : Allocation := { committedRecord with phase := .deleting, resourceID := "i-1" }

/-- An EC2 account with no volume and no interface of the allocation. -/
def bareAccount (instances : AwsReply AwsReservation) : (request : CloudRequest) → CloudReply request
  | .awsSession _ | .tagDisk _ _ => none
  | .describeInstances _ _ => instances
  | .describeVolumes _ _ | .describeNetworkInterfaces _ _ => .ok (some { items := [] })
  | .deploymentGet _ | .getByID _ _ | .describeImages _ | .gcpInstance _ _ | .gcpDisk _ _ | .gcpOperation _ _ =>
    .error { text := "unavailable" }
  | .listByResourceGroup | .gcpOperations _ _ => []

def instanceNotFound : AwsReply AwsReservation :=
  .error { text := "gone", api := true, code := "InvalidInstanceID.NotFound" }

theorem observed_absence_proven_instanceNotFound :
    ((awsCommand.observe recordedInstance).respond (bareAccount instanceNotFound)).2 =
        ({ known := true, resourceID := "i-1" }, none) ∧
      ProvenAbsent awsCommand recordedInstance
        ((awsCommand.observe recordedInstance).respond (bareAccount instanceNotFound)).1 :=
  ⟨by decide +kernel, (observed_absence_proven
    (returns_respond (bareAccount instanceNotFound) (awsCommand.observe recordedInstance))
    (by decide +kernel) (by decide +kernel)).mpr fun _ _ => .inl (by decide +kernel)⟩

/-- The reservation of the instance, with the instance left out. -/
def emptyReservation : AwsReply AwsReservation := .ok (some { items := [⟨"123456789012", []⟩] })

/-- Left out of its reservation, a recorded instance is observed to be absent. -/
theorem omitted_instance_observed_absent :
    ∃ (trace : List (Exchange CloudCalls)) (ob : Observation),
      (awsCommand.observe recordedInstance).Returns trace (ob, none) ∧ ob.known ∧ ob.present = false ∧
        ¬ ProvenAbsent awsCommand recordedInstance trace := by
  refine ⟨((awsCommand.observe recordedInstance).respond (bareAccount emptyReservation)).1,
    { known := true, resourceID := "i-1" },
    returns_respond (bareAccount emptyReservation) (awsCommand.observe recordedInstance), rfl, rfl, ?_⟩
  intro proven
  obtain missing | shown := (proven.aws rfl).vm (by decide)
  · exact absurd missing (by decide +kernel)
  · exact absurd shown (by decide +kernel)

end RunnerScout.Provider
