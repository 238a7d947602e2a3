import RunnerScout.Lifecycle.StepProtocol
import RunnerScout.Provider.AwsEvidence
import RunnerScout.Provider.Delete
import RunnerScout.Provider.Evidence
import RunnerScout.Provider.ProvenAbsence

/-! # Only what is owned and recorded is deleted

A delete call reads until it finds one resource it may delete.  What it reads in the
same call shows the ownership marks of that resource, and the record it was called
with already names it where the cloud does not fix its name.
-/

namespace RunnerScout.Provider

open Interaction Program Lifecycle

/-- What makes a destructive request legitimate, given what was read before it. -/
inductive Deletable (p : Command) (a : Allocation) (reads : List (Exchange CloudCalls)) : AdapterRequest → Prop where
  | vm {r : AwsReservation} {i : AwsInstance} (shown : r ∈ reads.flatMap shownReservations)
      (account : r.ownerID = p.config.accountID) (member : i ∈ r.instances) (own : awsInstanceOwned p a i) :
      Deletable p a reads (.terminateInstances [i.instanceID])
  | volume {v : AwsVolume} (shown : v ∈ reads.flatMap shownVolumes) (own : VerifiedVolume p a v)
      (recorded : ⟨"aws-volume", v.volumeID, ""⟩ ∈ a.resources)
      (terminated : ∀ i ∈ reads.flatMap shownInstances, i.state = some "terminated") :
      Deletable p a reads (.deleteVolume v.volumeID)
  | interface {n : AwsInterface} (shown : n ∈ reads.flatMap shownInterfaces) (own : interfaceOwned p a n)
      (recorded : ⟨"aws-network-interface", n.interfaceID, ""⟩ ∈ a.resources)
      (terminated : ∀ i ∈ reads.flatMap shownInstances, i.state = some "terminated") :
      Deletable p a reads (.deleteNetworkInterface n.interfaceID)
  | path {spec : AzureResourceSpec} {resource : AzureGeneric} {tags : GoMap String String} {g : AzureGeneration}
      {uid version : String} (member : spec ∈ azureSpecs a)
      (shown : Answered reads (.getByID (azureID p spec.resourceType spec.name) spec.version) (.ok resource))
      (marks : azureTagSnapshot resource.tags = .ok tags)
      (owner : (tags.lookup "runnerscout-owner").getD "" = p.config.owner)
      (operation : (tags.lookup "runnerscout-operation").getD "" = a.id)
      (found : resource.generation = some g) (value : uuidValue p (generationOf spec resource g).1 = some uid)
      (generation : ∀ reference ∈ a.resources, reference.kind = spec.kind → reference.uid = uid)
      (recorded : ∃ reference ∈ a.resources, OnPath p reference spec) :
      Deletable p a reads (.beginDelete (azureID p spec.resourceType spec.name) version)
  | gcpVM {vm : GcpInstance} (shown : Answered reads (.gcpInstance a.offering.zone a.id) (.ok vm))
      (own : ownsGCP p a vm.labels) :
      Deletable p a reads (.gcpDeleteInstance a.offering.zone a.id (gcpRequestID p a "delete-vm"))
  | gcpDisk {disk : GcpDisk} (shown : Answered reads (.gcpDisk a.offering.zone a.id) (.ok disk))
      (own : ownsGCP p a disk.labels) :
      Deletable p a reads (.gcpDeleteDisk a.offering.zone a.id (gcpRequestID p a "delete-disk"))

/-- A destructive request, with everything before it only read. -/
def Eligible (p : Command) (a : Allocation) (trace : List (Exchange AdapterCalls)) (request : AdapterRequest) : Prop :=
  ∃ reads, trace = reads.map Read ∧ Deletable p a reads request

section Delete

variable {p : Command} {a : Allocation} {trace : List (Exchange AdapterCalls)} {request : AdapterRequest}

theorem destroys_not_read (destroys : request.destroys) (asked : CloudRequest) : request ≠ .read asked := by
  rintro rfl
  cases destroys

/-- A request after which nothing else is asked for. -/
theorem reaches_last {β : Type} {asked : AdapterRequest} {next : AdapterReply asked → Program AdapterCalls β}
    (run : (ask (S := AdapterCalls) asked >>= next).Reaches trace request)
    (quiet : ∀ reply later, ¬ (next reply).Reaches later request) : trace = [] ∧ request = asked := by
  obtain now | ⟨reply, later, _, rest⟩ := reaches_ask run
  · exact now
  · exact absurd rest (quiet reply later)

/-! ## EC2 -/

theorem awsTerminate_reaches {id : String} (run : (awsTerminate id).Reaches trace request) :
    trace = [] ∧ request = .terminateInstances [id] := by
  unfold awsTerminate at run
  apply reaches_last run
  intro reply later
  split
  · exact not_reaches_done
  · split <;> exact not_reaches_done
  · exact not_reaches_done

theorem awsDeleteInterfaces_reaches : ∀ {interfaces : List (String × AwsInterface)},
    (awsDeleteInterfaces interfaces).Reaches trace request →
      trace = [] ∧ ∃ entry ∈ interfaces, request = .deleteNetworkInterface entry.1
  | [], run => absurd run not_reaches_done
  | (id, network) :: rest, run => by
    have later (run : (awsDeleteInterfaces rest).Reaches trace request) :
        trace = [] ∧ ∃ entry ∈ (id, network) :: rest, request = .deleteNetworkInterface entry.1 := by
      obtain ⟨first, entry, member, same⟩ := awsDeleteInterfaces_reaches run
      exact ⟨first, entry, List.mem_cons_of_mem _ member, same⟩
    rw [awsDeleteInterfaces] at run
    split at run
    · exact later run
    split at run
    · obtain ⟨first, same⟩ := reaches_last run fun reply more => by
        split
        · exact not_reaches_done
        · split <;> exact not_reaches_done
      exact ⟨first, _, List.mem_cons_self, same⟩
    split at run
    · exact later run
    · exact absurd run not_reaches_done

theorem awsDeleteVolumes_reaches {interfaces : List (String × AwsInterface)} :
    ∀ {volumes : List (String × AwsVolume)}, (awsDeleteVolumes interfaces volumes).Reaches trace request →
      trace = [] ∧ ((∃ entry ∈ volumes, request = .deleteVolume entry.1) ∨
        ∃ entry ∈ interfaces, request = .deleteNetworkInterface entry.1)
  | [], run => by
    obtain ⟨first, found⟩ := awsDeleteInterfaces_reaches run
    exact ⟨first, .inr found⟩
  | (id, volume) :: rest, run => by
    have later (run : (awsDeleteVolumes interfaces rest).Reaches trace request) :
        trace = [] ∧ ((∃ entry ∈ (id, volume) :: rest, request = .deleteVolume entry.1) ∨
          ∃ entry ∈ interfaces, request = .deleteNetworkInterface entry.1) := by
      obtain ⟨first, ⟨entry, member, same⟩ | found⟩ := awsDeleteVolumes_reaches run
      · exact ⟨first, .inl ⟨entry, List.mem_cons_of_mem _ member, same⟩⟩
      · exact ⟨first, .inr found⟩
    rw [awsDeleteVolumes] at run
    split at run
    · exact later run
    split at run
    · obtain ⟨first, same⟩ := reaches_last run fun reply more => by
        split
        · exact not_reaches_done
        · split <;> exact not_reaches_done
      exact ⟨first, .inl ⟨_, List.mem_cons_self, same⟩⟩
    split at run
    · exact later run
    · exact absurd run not_reaches_done

theorem mem_byName {V : Type} {m : GoMap String V} {entry : String × V} (member : entry ∈ byName m) :
    m.lookup entry.1 = some entry.2 := by
  rw [byName, List.mem_insertionSort] at member
  obtain ⟨⟨id, value⟩, among, rfl⟩ := List.mem_map.mp member
  exact AList.mem_lookup_iff.mpr among

/-- A merge that changes nothing brings nothing new. -/
theorem mergeResources_unchanged {current observed merged : List ResourceReference}
    (merges : mergeResources current observed = .ok (merged, false)) : observed ⊆ current := by
  have same : current = merged := by
    unfold mergeResources at merges
    split at merges
    · cases merges
    · simp only [Except.ok.injEq, Prod.mk.injEq, decide_eq_false_iff_not, Decidable.not_not] at merges
      exact merges.2.trans merges.1
  intro reference member
  rw [same]
  exact ((mergeResources_merged merges).mem reference).mpr (List.mem_append_right _ member)

/-- What the delete path of EC2 goes on to is covered by the inventory it rests on. -/
theorem awsDeleteOne_reaches {s : AwsInventory} {observed : Observation} {reads : List (Exchange CloudCalls)}
    (evidence : AwsEvidence p a reads s) (observes : s.observation a = (observed, none))
    (recorded : observed.resources ⊆ a.resources)
    (run : (awsDeleteOne s observed).Reaches trace request) : trace = [] ∧ Deletable p a reads request := by
  obtain ⟨_, _, _, _, identity, merged⟩ := observation_known observes (.inr rfl)
  -- once no live instance was shown, volumes and interfaces may go
  have dependencies (terminated : ∀ i ∈ reads.flatMap shownInstances, i.state = some "terminated")
      (run : (awsDeleteVolumes (byName s.interfaces) (byName s.volumes)).Reaches trace request) :
      trace = [] ∧ Deletable p a reads request := by
    obtain ⟨first, ⟨⟨id, v⟩, member, rfl⟩ | ⟨⟨id, n⟩, member, rfl⟩⟩ := awsDeleteVolumes_reaches run
    · have found := mem_byName member
      obtain ⟨shown, rfl, own⟩ := evidence.volumes.entry id v found
      refine ⟨first, .volume shown own (recorded ((merged.mem _).mpr ?_)) terminated⟩
      have key : v.volumeID ∈ s.volumes.keys := AList.mem_keys.mp (AList.lookup_isSome.mp (by simp [found]))
      simp [key]
    · have found := mem_byName member
      obtain ⟨shown, rfl, own⟩ := evidence.interfaces.entry id n found
      refine ⟨first, .interface shown own (recorded ((merged.mem _).mpr ?_)) terminated⟩
      have key : n.interfaceID ∈ s.interfaces.keys := AList.mem_keys.mp (AList.lookup_isSome.mp (by simp [found]))
      simp [key]
  unfold awsDeleteOne at run
  cases set : s.vm with
  | none =>
    rw [set] at run
    refine dependencies (fun i shown => ?_) run
    simpa [set] using (evidence.instances.vm i).mp shown
  | some i =>
    rw [set] at run
    dsimp only at run
    split at run
    · split at run
      · exact absurd run not_reaches_done
      obtain ⟨first, rfl⟩ := awsTerminate_reaches run
      have shown := (evidence.instances.vm i).mpr set
      obtain ⟨x, asked, inside⟩ := List.mem_flatMap.mp shown
      obtain ⟨r, among, member⟩ := List.mem_flatMap.mp inside
      have reservation : r ∈ reads.flatMap shownReservations := List.mem_flatMap.mpr ⟨x, asked, among⟩
      obtain ⟨account, own⟩ := evidence.instances.own r reservation
      rw [identity, set]
      exact ⟨first, .vm reservation account member (own i member)⟩
    · rename_i terminated
      refine dependencies (fun j shown => ?_) run
      have same := (evidence.instances.vm j).mp shown
      rw [set] at same
      cases same
      simpa using terminated

theorem Deletable.later {reads : List (Exchange CloudCalls)} {x : Exchange CloudCalls}
    (deletable : Deletable p a reads request) (silent : shownReservations x = []) :
    Deletable p a (x :: reads) request := by
  have instances : (x :: reads).flatMap shownInstances = reads.flatMap shownInstances := by
    simp [shownInstances, silent]
  have shownLater {α : Type} {shown : Exchange CloudCalls → List α} {v : α} (before : v ∈ reads.flatMap shown) :
      v ∈ (x :: reads).flatMap shown := by
    rw [List.flatMap_cons]
    exact List.mem_append_right _ before
  cases deletable with
  | vm shown account member own => exact .vm (shownLater shown) account member own
  | volume shown own recorded terminated => exact .volume (shownLater shown) own recorded (instances ▸ terminated)
  | interface shown own recorded terminated =>
    exact .interface (shownLater shown) own recorded (instances ▸ terminated)
  | path member shown marks owner operation found value generation recorded =>
    exact .path member (List.mem_cons_of_mem _ shown) marks owner operation found value generation recorded
  | gcpVM shown own => exact .gcpVM (List.mem_cons_of_mem _ shown) own
  | gcpDisk shown own => exact .gcpDisk (List.mem_cons_of_mem _ shown) own

theorem deleteAWS_eligible (run : (deleteAWS p a).Reaches trace request) (destroys : request.destroys) :
    Eligible p a trace request := by
  unfold deleteAWS at run
  obtain ⟨session, later, rfl, opened⟩ := reaches_read (destroys_not_read destroys) run
  cases session with
  | some refused => exact absurd opened not_reaches_done
  | none =>
    obtain ⟨reads, rest, result, rfl, inventory, listed⟩ := reaches_after (destroys_not_read destroys) opened
    cases result with
    | error failed => exact absurd listed not_reaches_done
    | ok s =>
      dsimp only at listed
      split at listed
      · exact absurd listed not_reaches_done
      rename_i observed observes
      split at listed
      · rename_i merged merges
        split at listed
        · exact absurd listed not_reaches_done
        obtain ⟨rfl, deletable⟩ := awsDeleteOne_reaches (awsInventory_evidence inventory) observes
          (mergeResources_unchanged merges) listed
        exact ⟨⟨.awsSession a.offering.region, none⟩ :: reads, by simp, deletable.later rfl⟩
      · exact absurd listed not_reaches_done

/-! ## Azure -/

/-- What is known of a resource that was read and accepted. -/
theorem readResource_ok {allow : Bool} {references : GoMap String ResourceReference} {spec : AzureResourceSpec}
    {resource : AzureGeneric} {item : AzureResource}
    (accepted : readResource p a allow references spec resource = .ok item) :
    ∃ tags, azureTagSnapshot resource.tags = .ok tags ∧
      azureOwnership p tags a (allow && spec.kind = "azure-disk") = none ∧
      (∃ g, resource.generation = some g ∧ uuidValue p (generationOf spec resource g).1 = some item.uid) ∧
      (∀ previous, references.lookup spec.kind = some previous → previous.uid = item.uid) ∧
      item.id = azureID p spec.resourceType spec.name ∧ item.type = spec.resourceType := by
  unfold readResource at accepted
  split at accepted
  · cases accepted
  split at accepted
  · cases accepted
  rename_i tags marks
  split at accepted
  · cases accepted
  rename_i own
  split at accepted
  · cases accepted
  rename_i g found
  dsimp only at accepted
  split at accepted
  · cases accepted
  rename_i uid value
  split at accepted
  · cases accepted
  split at accepted
  · cases accepted
  rename_i same
  split at accepted
  · cases accepted
  cases accepted
  refine ⟨tags, marks, own, ⟨g, found, value⟩, ?_, rfl, rfl⟩
  intro previous known
  simpa [known] using same

theorem azureOwnership_none {tags : GoMap String String} (own : azureOwnership p tags a false = none) :
    (tags.lookup "runnerscout-owner").getD "" = p.config.owner ∧
      (tags.lookup "runnerscout-operation").getD "" = a.id := by
  unfold azureOwnership at own
  split at own
  · cases own
  rename_i agrees
  simpa using agrees

theorem azureSpecs_kind {spec other : AzureResourceSpec} (member : spec ∈ azureSpecs a) (among : other ∈ azureSpecs a)
    (same : spec.kind = other.kind) : spec = other := by
  simp only [azureSpecs, List.mem_cons, List.not_mem_nil, or_false] at member among
  rcases member with rfl | rfl | rfl <;> rcases among with rfl | rfl | rfl <;> first | rfl | simp at same

theorem observedReferences_ok {retained : GoMap String ResourceReference} :
    ∀ {found : List (AzureResource × AzureResourceSpec)} {references observed : List ResourceReference},
      observedReferences retained found references = .ok observed →
        references ⊆ observed ∧
          ∀ pair ∈ found, ∃ reference ∈ observed, observedReference retained pair.1 pair.2 = .ok reference
  | [], references, observed, collected => by
    cases collected
    exact ⟨List.Subset.refl _, by simp⟩
  | (resource, spec) :: rest, references, observed, collected => by
    rw [observedReferences] at collected
    split at collected
    · cases collected
    rename_i reference first
    obtain ⟨kept, members⟩ := observedReferences_ok collected
    refine ⟨fun r member => kept (List.mem_append_left _ member), ?_⟩
    intro pair member
    obtain rfl | member := List.mem_cons.mp member
    · exact ⟨reference, kept (by simp), first⟩
    · exact members pair member

/-- An observed resource has a reference of its kind. -/
theorem azureObservation_references {resources : List AzureResource} {observed : Observation}
    {references : GoMap String ResourceReference} (retained : azureReferences p a = .ok references)
    (observes : azureObservation p a resources = .ok observed) {resource : AzureResource} {spec : AzureResourceSpec}
    (found : resource ∈ resources) (member : spec ∈ azureSpecs a) (type : resource.type = spec.resourceType) :
    ∃ reference ∈ observed.resources, reference.kind = spec.kind := by
  unfold azureObservation at observes
  rw [retained] at observes
  dsimp only at observes
  split at observes
  · cases observes
  rename_i collected gathers
  split at observes
  · cases observes
  rename_i merged changed merges
  cases observes
  have pair : (resource, spec) ∈ resources.flatMap fun resource =>
      ((azureSpecs a).filter fun spec => equalFold resource.type spec.resourceType).map fun spec =>
        (resource, spec) := by
    refine List.mem_flatMap.mpr ⟨resource, found, List.mem_map.mpr ⟨spec, ?_, rfl⟩⟩
    exact List.mem_filter.mpr ⟨member, by simp [equalFold, type]⟩
  obtain ⟨reference, listed, made⟩ := (observedReferences_ok gathers).2 _ pair
  refine ⟨reference, ((mergeResources_merged merges).mem reference).mpr listed, ?_⟩
  unfold observedReference at made
  split at made
  · cases made
    rfl
  · rename_i previous recorded
    split at made
    · cases made
    · cases made
      exact ((azureReferences_ok retained).2 spec.kind reference recorded).2

theorem azureDelete_reaches {resource : AzureResource} (run : (azureDelete resource).Reaches trace request) :
    trace = [] ∧ ∃ version, request = .beginDelete resource.id version := by
  unfold azureDelete at run
  split at run
  · exact absurd run not_reaches_done
  obtain ⟨first, same⟩ := reaches_last run fun reply more => by
    split
    · exact not_reaches_done
    · split <;> exact not_reaches_done
  exact ⟨first, _, same⟩

theorem azureDeleteOne_reaches : ∀ {candidates : List (String × AzureResource)},
    (azureDeleteOne p a candidates).Reaches trace request →
      trace = [] ∧ ∃ pair ∈ candidates, ∃ version, request = .beginDelete pair.2.id version
  | [], run => absurd run not_reaches_done
  | (kind, resource) :: rest, run => by
    have later (run : (azureDeleteOne p a rest).Reaches trace request) :
        trace = [] ∧ ∃ pair ∈ (kind, resource) :: rest, ∃ version, request = .beginDelete pair.2.id version := by
      obtain ⟨first, pair, member, same⟩ := azureDeleteOne_reaches run
      exact ⟨first, pair, List.mem_cons_of_mem _ member, same⟩
    have now (run : (azureDelete resource).Reaches trace request) :
        trace = [] ∧ ∃ pair ∈ (kind, resource) :: rest, ∃ version, request = .beginDelete pair.2.id version := by
      obtain ⟨first, same⟩ := azureDelete_reaches run
      exact ⟨first, _, List.mem_cons_self, same⟩
    rw [azureDeleteOne] at run
    split at run
    · exact later run
    split at run
    · exact later run
    split at run
    · split at run
      · exact absurd run not_reaches_done
      · exact now run
    · exact now run

theorem deleteAzure_eligible (run : (deleteAzure p a).Reaches trace request) (destroys : request.destroys) :
    Eligible p a trace request := by
  unfold deleteAzure at run
  split at run
  · exact absurd run not_reaches_done
  rename_i references retained
  obtain ⟨asked, rest, result, rfl, deployment, finished⟩ := reaches_after (destroys_not_read destroys) run
  split at finished
  · obtain ⟨reads, last, result, rfl, inventory, listed⟩ := reaches_after (destroys_not_read destroys) finished
    cases result with
    | error failed => exact absurd listed not_reaches_done
    | ok resources =>
      dsimp only at listed
      split at listed
      · exact absurd listed not_reaches_done
      rename_i observed observes
      split at listed
      · rename_i merged merges
        obtain ⟨rfl, ⟨kind, resource⟩, candidate, version, rfl⟩ := azureDeleteOne_reaches listed
        have found : resource ∈ resources := by
          obtain ⟨_, _, member⟩ := List.mem_flatMap.mp candidate
          obtain ⟨_, among, same⟩ := List.mem_map.mp member
          cases same
          exact among
        obtain ⟨again, pages, direct, same, rfl, paths⟩ := azureInventory_returns inventory
        rw [retained] at same
        cases same
        obtain ⟨spec, member, shown, answered, accepted⟩ := paths.accepted resource found
        obtain ⟨tags, marks, own, ⟨g, known, value⟩, generation, identity, type⟩ := readResource_ok accepted
        obtain ⟨owner, operation⟩ := azureOwnership_none own
        obtain ⟨reference, listed, kind⟩ := azureObservation_references retained observes found member type
        have recorded := mergeResources_unchanged merges listed
        refine ⟨asked ++ ⟨.listByResourceGroup, pages⟩ :: direct, by simp, ?_⟩
        dsimp only
        rw [identity]
        refine .path member (by simp [answered]) marks owner operation known value
          (fun previous among sameKind => ?_) ⟨reference, recorded, ?_⟩
        · exact generation previous (sameKind ▸ ((azureReferences_ok retained).1 previous among).1)
        · obtain ⟨_, _, other, among, path⟩ := (azureReferences_ok retained).1 reference recorded
          rw [azureSpecs_kind member among (kind.symm.trans path.1)]
          exact path
      · exact absurd listed not_reaches_done
  · exact absurd finished not_reaches_done

/-! ## Compute Engine -/

theorem gcpDeleted_reaches {action kind : String}
    {reply : Except CloudError GcpOperation} (run : (gcpDeleted p a action kind reply).Reaches trace request) :
    ¬ request.destroys := by
  cases reply with
  | error e =>
    rw [gcpDeleted] at run
    split at run <;> exact absurd run not_reaches_done
  | ok op => simp [(neither_of_passive ((waitGCPOperation_only _ _ _).reaches run)).2]

theorem gcpVM_some {reply : Except CloudError GcpInstance} {vm : GcpInstance}
    (read : gcpVM p a reply = .ok (some vm)) : reply = .ok vm ∧ ownsGCP p a vm.labels := by
  cases reply with
  | error e =>
    simp only [gcpVM] at read
    split at read <;> cases read
  | ok shown =>
    simp only [gcpVM] at read
    split at read
    · cases read
    rename_i accepted
    split at read
    · cases read
    cases read
    simp only [not_or, Bool.not_eq_eq_eq_not, Bool.not_true, Bool.not_eq_false] at accepted
    exact ⟨rfl, accepted.2.2.2⟩

theorem gcpDisk_some {reply : Except CloudError GcpDisk} {disk : GcpDisk}
    (read : gcpDisk p a reply = .ok (some disk)) : reply = .ok disk ∧ ownsGCP p a disk.labels := by
  cases reply with
  | error e =>
    simp only [gcpDisk] at read
    split at read <;> cases read
  | ok shown =>
    simp only [gcpDisk] at read
    split at read
    · cases read
    rename_i accepted
    split at read
    · cases read
    cases read
    simp only [not_or, Bool.not_eq_eq_eq_not, Bool.not_true, Bool.not_eq_false] at accepted
    exact ⟨rfl, accepted.2.2.2⟩

/-- The record is completed by what was observed before, which is part of `earlier`. -/
theorem deleteGCP_eligible {id : String} (run : (deleteGCP p { a with resourceID := id }).Reaches trace request)
    (destroys : request.destroys) :
    ∃ reads, trace = reads.map Read ∧ ∀ earlier, Deletable p a (earlier ++ reads) request := by
  unfold deleteGCP at run
  obtain ⟨asked, rest, result, rfl, created, committed⟩ := reaches_after (destroys_not_read destroys) run
  cases result with
  | some failed => exact absurd committed not_reaches_done
  | none =>
    obtain ⟨reads, last, result, rfl, inventory, listed⟩ := reaches_after (destroys_not_read destroys) committed
    match result, inventory, listed with
    | .error failed, _, listed => exact absurd listed not_reaches_done
    | .ok ⟨some vm, disk⟩, inventory, listed =>
      obtain ⟨vmReply, diskReply, rfl, readVM, _⟩ := gcpInventory_returns inventory
      obtain ⟨rfl, own⟩ := gcpVM_some readVM
      obtain ⟨rfl, rfl⟩ := reaches_last listed fun reply later run =>
        gcpDeleted_reaches run destroys
      exact ⟨asked ++ [⟨.gcpInstance a.offering.zone a.id, .ok vm⟩, ⟨.gcpDisk a.offering.zone a.id, diskReply⟩],
        by simp, fun earlier => .gcpVM (by simp) own⟩
    | .ok ⟨none, some disk⟩, inventory, listed =>
      dsimp only at listed
      split at listed
      · exact absurd listed not_reaches_done
      obtain ⟨vmReply, diskReply, rfl, _, readDisk⟩ := gcpInventory_returns inventory
      obtain ⟨rfl, own⟩ := gcpDisk_some readDisk
      obtain ⟨rfl, rfl⟩ := reaches_last listed fun reply later run =>
        gcpDeleted_reaches run destroys
      exact ⟨asked ++ [⟨.gcpInstance a.offering.zone a.id, vmReply⟩, ⟨.gcpDisk a.offering.zone a.id, .ok disk⟩],
        by simp, fun earlier => .gcpDisk (by simp) own⟩
    | .ok ⟨none, none⟩, _, listed => exact absurd listed not_reaches_done

/-! ## The adapter -/

theorem delete_eligible (run : (p.delete a).Reaches trace request) (destroys : request.destroys) :
    Eligible p a trace request := by
  unfold Command.delete at run
  split at run
  · exact absurd run not_reaches_done
  split at run
  · exact absurd run not_reaches_done
  split at run
  · exact deleteAWS_eligible run destroys
  split at run
  · exact deleteAzure_eligible run destroys
  obtain ⟨reads, later, ⟨ob, e⟩, rfl, observed, known⟩ := reaches_after (destroys_not_read destroys) run
  cases e with
  | some failed => exact absurd known not_reaches_done
  | none =>
    dsimp only at known
    split at known
    · exact absurd known not_reaches_done
    split at known
    · exact absurd known not_reaches_done
    split at known
    · exact absurd known not_reaches_done
    obtain ⟨direct, rfl, deletable⟩ := deleteGCP_eligible known destroys
    exact ⟨reads ++ direct, by simp, deletable reads⟩

end Delete

/-! ## What `Step` passes to a delete call -/

/-- The record the store last returned in a run of `Step`. -/
def lastStored : List (Exchange Calls) → Option Allocation → Option Allocation
  | [], known => known
  | ⟨.load _, .ok a⟩ :: later, _ | ⟨.save _ _, .ok a⟩ :: later, _ => lastStored later (some a)
  | _ :: later, known => lastStored later known

/-- What one exchange makes of the record a run holds. -/
theorem held_next {view : View} {known : Option Allocation} (holds : ∀ a, view.held = some a → known = some a)
    (x : Exchange Calls) : ∀ a, (view.next x.request x.reply).held = some a → lastStored [x] known = some a := by
  obtain ⟨request, reply⟩ := x
  intro a held
  cases request
  case load id => cases reply <;> simp_all [View.next, View.held, lastStored]
  case save written revision =>
    cases reply with
    | error e => simp [View.next, View.held] at held
    | ok stored =>
      simp only [View.next] at held
      repeat' split at held
      all_goals simp_all [View.held, lastStored]
  all_goals
    simp only [View.next] at held
    repeat' split at held
    all_goals simp_all [View.held, lastStored]

theorem lastStored_cons (x : Exchange Calls) (later : List (Exchange Calls)) (known : Option Allocation) :
    lastStored (x :: later) known = lastStored later (lastStored [x] known) := by
  obtain ⟨request, reply⟩ := x
  cases request <;> try rfl
  all_goals cases reply <;> rfl

/-- The record a run of `Step` holds is the one the store last returned. -/
theorem held_lastStored {c : Controller} : ∀ {trace : List (Exchange Calls)} {view : View} {known : Option Allocation},
    (∀ a, view.held = some a → known = some a) →
      ∀ a, ((stepProtocol c).after view trace).held = some a → lastStored trace known = some a
  | [], _, _, holds, a, held => holds a held
  | x :: later, _, _, holds, a, held => by
    rw [lastStored_cons]
    exact held_lastStored (held_next holds x) a held

theorem step_deletes_stored {c : Controller} {id provider : String} {a : Allocation} {trace : List (Exchange Calls)}
    (run : (c.step id).Reaches trace (.delete provider a))
    (honest : ∀ x ∈ trace, View.answers x.request x.reply) : lastStored trace none = some a := by
  have follows : (c.step id).Follows (stepProtocol c) .start fun _ _ => True := step_follows id
  have allowed : View.allowed c ((stepProtocol c).after .start trace) (.delete provider a) :=
    follows.reaches run honest
  obtain ⟨now, ob, view, _⟩ := allowed
  have start (a : Allocation) (held : View.start.held = some a) : (none : Option Allocation) = some a := held
  have held : ((stepProtocol c).after .start trace).held = some a := by
    rw [view]
    rfl
  exact held_lastStored start a held

/-- Whatever a delete call comes to delete, it has only read so far, and the resource
    is the allocation's own and recorded; the record it was called with is the one
    `Step` last stored. -/
theorem delete_only_recorded {p : Command} {a : Allocation} {trace : List (Exchange AdapterCalls)}
    {request : AdapterRequest} (run : (p.delete a).Reaches trace request) (destroys : request.destroys) :
    Eligible p a trace request ∧ (∀ x ∈ trace, x.request.destroys = false) ∧
      ∀ (c : Controller) (id provider : String) (stepTrace : List (Exchange Calls)),
        (c.step id).Reaches stepTrace (.delete provider a) →
          (∀ x ∈ stepTrace, View.answers x.request x.reply) → lastStored stepTrace none = some a := by
  have eligible := delete_eligible run destroys
  refine ⟨eligible, ?_, fun c id provider stepTrace => step_deletes_stored⟩
  obtain ⟨reads, rfl, _⟩ := eligible
  intro x member
  obtain ⟨y, _, rfl⟩ := List.mem_map.mp member
  rfl

/-! ## A running instance -/

/-- The cloud of `bareAccount` for an adapter that sends nothing but a termination. -/
def runningAccount : (request : AdapterRequest) → AdapterReply request
  | .read request => bareAccount (.ok (some { items := [⟨"123456789012", [launched]⟩] })) request
  | .terminateInstances _ => .ok (some [⟨"i-1", some "shutting-down"⟩])
  | .bootstrap _ | .generateKey | .generatePollToken | .runInstances _ | .gcpInsert _ _ _
  | .gcpDeleteInstance _ _ _ | .gcpDeleteDisk _ _ _ => .error { text := "unavailable" }
  | .networkPeers _ => .ok []
  | .pause => true
  | .deleteVolume _ | .deleteNetworkInterface _ | .deploy _ _ _ | .beginDelete _ _ => none

theorem delete_only_recorded_runningAccount :
    ((awsCommand.delete recordedInstance).proceed runningAccount 4).2.asked = some (.terminateInstances ["i-1"]) ∧
      Eligible awsCommand recordedInstance ((awsCommand.delete recordedInstance).proceed runningAccount 4).1
        (.terminateInstances ["i-1"]) :=
  ⟨rfl, (delete_only_recorded (reaches_proceed rfl) rfl).1⟩

end RunnerScout.Provider
