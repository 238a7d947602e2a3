import RunnerScout.Interaction.Trace
import RunnerScout.Provider.Adapter
import RunnerScout.State.References

/-! # What an Azure and a Compute Engine inventory rest on

Both clouds are asked for a fixed number of paths, so an inventory is a short list of
direct reads.  Every resource it holds was shown, with its ownership marks, by one of
them; every other path was answered with a 404.
-/

namespace RunnerScout.Provider

open Interaction Program Lifecycle

variable {resources : List AzureResource}

/-- The cloud was asked this and answered so. -/
abbrev Answered (trace : List (Exchange CloudCalls)) (request : CloudRequest) (reply : CloudReply request) : Prop :=
  (⟨request, reply⟩ : Exchange CloudCalls) ∈ trace

/-! ## Azure -/

section Azure

variable {p : Command} {a : Allocation} {allow : Bool} {references : GoMap String ResourceReference}
  {trace : List (Exchange CloudCalls)}

/-- The paths of an allocation, each read once, and what was found. -/
inductive PathsRead (p : Command) (a : Allocation) (allow : Bool) (references : GoMap String ResourceReference) :
    List AzureResourceSpec → List (Exchange CloudCalls) → List AzureResource → Prop where
  | ended : PathsRead p a allow references [] [] []
  | missing {spec : AzureResourceSpec} {rest : List AzureResourceSpec} {trace : List (Exchange CloudCalls)}
      {found : List AzureResource} {e : CloudError} (gone : azureResourceMissing e)
      (later : PathsRead p a allow references rest trace found) :
      PathsRead p a allow references (spec :: rest)
        (⟨.getByID (azureID p spec.resourceType spec.name) spec.version, .error e⟩ :: trace) found
  | found {spec : AzureResourceSpec} {rest : List AzureResourceSpec} {trace : List (Exchange CloudCalls)}
      {found : List AzureResource} {resource : AzureGeneric} {item : AzureResource}
      (read : readResource p a allow references spec resource = .ok item)
      (later : PathsRead p a allow references rest trace found) :
      PathsRead p a allow references (spec :: rest)
        (⟨.getByID (azureID p spec.resourceType spec.name) spec.version, .ok resource⟩ :: trace) (item :: found)

theorem readSpecs_returns {seen : List String} :
    ∀ {specs : List AzureResourceSpec} {result : List AzureResource} {trace : List (Exchange CloudCalls)},
      (readSpecs p a allow references seen specs result).Returns trace (.ok resources) →
        ∃ found, resources = result ++ found ∧ PathsRead p a allow references specs trace found
  | [], result, trace, run => by
    obtain ⟨rfl, same⟩ := returns_pure.mp run
    cases same
    exact ⟨[], by simp, .ended⟩
  | spec :: rest, result, trace, run => by
    rw [readSpecs, returns_ask] at run
    obtain ⟨reply, later, rfl, run⟩ := run
    cases reply with
    | error e =>
      dsimp only at run
      split at run
      · rename_i gone
        split at run
        · simp at run
        · obtain ⟨found, same, read⟩ := readSpecs_returns run
          exact ⟨found, same, .missing gone read⟩
      · simp at run
    | ok resource =>
      dsimp only at run
      split at run
      · simp at run
      · rename_i item accepted
        obtain ⟨found, same, read⟩ := readSpecs_returns run
        exact ⟨item :: found, by simp [same], .found accepted read⟩

theorem PathsRead.all_missing {specs : List AzureResourceSpec} (read : PathsRead p a allow references specs trace []) :
    ∀ spec ∈ specs, ∃ e, Answered trace (.getByID (azureID p spec.resourceType spec.name) spec.version) (.error e) ∧
      azureResourceMissing e := by
  generalize empty : ([] : List AzureResource) = found at read
  induction read with
  | ended => simp
  | missing gone later ih =>
    intro spec member
    obtain rfl | member := List.mem_cons.mp member
    · exact ⟨_, List.mem_cons_self, gone⟩
    · obtain ⟨e, answered, missing⟩ := ih empty spec member
      exact ⟨e, List.mem_cons_of_mem _ answered, missing⟩
  | found => cases empty

/-- Each resource of an inventory was shown and accepted. -/
theorem PathsRead.accepted {specs : List AzureResourceSpec} {found : List AzureResource}
    (read : PathsRead p a allow references specs trace found) :
    ∀ item ∈ found, ∃ spec ∈ specs, ∃ resource,
      Answered trace (.getByID (azureID p spec.resourceType spec.name) spec.version) (.ok resource) ∧
        readResource p a allow references spec resource = .ok item := by
  induction read with
  | ended => simp
  | missing gone later ih =>
    intro item member
    obtain ⟨spec, among, resource, answered, accepted⟩ := ih item member
    exact ⟨spec, List.mem_cons_of_mem _ among, resource, List.mem_cons_of_mem _ answered, accepted⟩
  | found accepted later ih =>
    intro item member
    obtain rfl | member := List.mem_cons.mp member
    · exact ⟨_, List.mem_cons_self, _, List.mem_cons_self, accepted⟩
    · obtain ⟨spec, among, resource, answered, accepted⟩ := ih item member
      exact ⟨spec, List.mem_cons_of_mem _ among, resource, List.mem_cons_of_mem _ answered, accepted⟩

theorem azureInventory_returns (run : (azureInventory p a allow).Returns trace (.ok resources)) :
    ∃ references pages later, azureReferences p a = .ok references ∧ trace = ⟨.listByResourceGroup, pages⟩ :: later ∧
      PathsRead p a allow references (azureSpecs a) later resources := by
  unfold azureInventory at run
  split at run
  · simp at run
  rename_i references recorded
  rw [returns_ask] at run
  obtain ⟨pages, later, rfl, run⟩ := run
  split at run
  · simp at run
  split at run
  · simp at run
  obtain ⟨found, rfl, read⟩ := readSpecs_returns run
  exact ⟨references, pages, later, recorded, rfl, read⟩

/-! ### Deployments -/

/-- The answers after which a deployment creates nothing any more. -/
def deploymentOver : Except CloudError AzureDeployment → Bool
  | .error e => missingAzureResource e
  | .ok deployment => deployment.provisioningState.any ["Succeeded", "Failed", "Canceled"].contains

theorem azureTerminal_returns (run : (azureTerminal a).Returns trace (.ok true)) :
    ∃ reply, trace = [⟨.deploymentGet a.id, reply⟩] ∧ deploymentOver reply := by
  unfold azureTerminal terminal at run
  rw [returns_bind] at run
  obtain ⟨first, second, result, rfl, asked, run⟩ := run
  rw [returns_ask] at asked
  obtain ⟨reply, later, rfl, asked⟩ := asked
  cases result with
  | error e => simp at run
  | ok finished =>
    obtain ⟨rfl, same⟩ := returns_pure.mp run
    cases same
    cases reply with
    | error e =>
      dsimp only at asked
      split at asked
      · rename_i missing
        obtain ⟨rfl, _⟩ := returns_pure.mp asked
        exact ⟨.error e, rfl, missing⟩
      · simp at asked
    | ok deployment =>
      dsimp only at asked
      split at asked
      · simp at asked
      · rename_i state reported
        obtain ⟨rfl, same⟩ := returns_pure.mp asked
        refine ⟨.ok deployment, rfl, ?_⟩
        simpa [deploymentOver, reported] using same.symm

/-! ### Recorded references -/

/-- A reference that is one of the allocation's paths. -/
def OnPath (p : Command) (reference : ResourceReference) (spec : AzureResourceSpec) : Prop :=
  reference.kind = spec.kind ∧ equalFold reference.id (azureID p spec.resourceType spec.name)

theorem addReference_ok {reference : ResourceReference} :
    ∀ {specs : List AzureResourceSpec} {valid after : Bool} {result next : GoMap String ResourceReference},
      addReference p a reference specs valid result = .ok (after, next) →
        (after = valid ∧ next = result) ∨
          (result.lookup reference.kind = none ∧ next = result.insert reference.kind reference ∧
            uuidValue p reference.uid = some reference.uid ∧ ∃ spec ∈ specs, OnPath p reference spec)
  | [], valid, after, result, next, added => by
    cases added
    exact .inl ⟨rfl, rfl⟩
  | spec :: rest, valid, after, result, next, added => by
    rw [addReference] at added
    split at added
    · obtain same | ⟨fresh, inserted, canonical, other, member, path⟩ := addReference_ok added
      · exact .inl same
      · exact .inr ⟨fresh, inserted, canonical, other, List.mem_cons_of_mem _ member, path⟩
    rename_i kind
    split at added
    · cases added
    rename_i accepted
    split at added
    · cases added
    rename_i fresh
    simp only [not_or, Bool.not_eq_eq_eq_not, Bool.not_true, Bool.not_eq_false, ne_eq, Decidable.not_not]
      at kind accepted
    obtain ⟨_, rfl⟩ | ⟨taken, _⟩ := addReference_ok added
    · exact .inr ⟨by simpa using fresh, rfl, accepted.1, spec, List.mem_cons_self, kind, accepted.2⟩
    · rw [AList.lookup_insert] at taken
      cases taken

theorem addReferences_ok : ∀ {recorded : List ResourceReference} {result next : GoMap String ResourceReference},
    addReferences p a recorded result = .ok next →
      (∀ kind r, result.lookup kind = some r → next.lookup kind = some r) ∧
        (∀ r ∈ recorded, next.lookup r.kind = some r ∧ uuidValue p r.uid = some r.uid ∧
          ∃ spec ∈ azureSpecs a, OnPath p r spec) ∧
        ∀ kind r, next.lookup kind = some r → result.lookup kind = some r ∨ (r ∈ recorded ∧ r.kind = kind)
  | [], result, next, added => by
    cases added
    exact ⟨fun _ _ => id, by simp, fun _ _ => .inl⟩
  | reference :: rest, result, next, added => by
    rw [addReferences] at added
    split at added
    · cases added
    · cases added
    rename_i middle first
    obtain ⟨impossible, _⟩ | ⟨fresh, rfl, path⟩ := addReference_ok first
    · cases impossible
    obtain ⟨kept, members, back⟩ := addReferences_ok added
    have stays (kind : String) (r : ResourceReference) (found : result.lookup kind = some r) :
        next.lookup kind = some r := by
      apply kept
      rw [AList.lookup_insert_ne]
      · exact found
      · rintro rfl
        rw [fresh] at found
        cases found
    refine ⟨stays, ?_, ?_⟩
    · intro r member
      obtain rfl | member := List.mem_cons.mp member
      · exact ⟨kept _ _ (AList.lookup_insert _), path⟩
      · exact members r member
    · intro kind r found
      obtain earlier | ⟨member, same⟩ := back kind r found
      · by_cases own : kind = reference.kind
        · rw [own, AList.lookup_insert] at earlier
          cases earlier
          exact .inr ⟨List.mem_cons_self, own.symm⟩
        · rw [AList.lookup_insert_ne own] at earlier
          exact .inl earlier
      · exact .inr ⟨List.mem_cons_of_mem _ member, same⟩

/-- The recorded references by kind, each on a path of the allocation. -/
theorem azureReferences_ok (recorded : azureReferences p a = .ok references) :
    (∀ r ∈ a.resources, references.lookup r.kind = some r ∧ uuidValue p r.uid = some r.uid ∧
        ∃ spec ∈ azureSpecs a, OnPath p r spec) ∧
      ∀ kind r, references.lookup kind = some r → r ∈ a.resources ∧ r.kind = kind := by
  unfold azureReferences at recorded
  split at recorded
  · cases recorded
  split at recorded
  · cases recorded
  rename_i merged changed merges
  have same := mergeResources_merged merges
  obtain ⟨_, members, back⟩ := addReferences_ok recorded
  constructor
  · intro r member
    exact members r ((same.mem r).mpr member)
  · intro kind r found
    obtain impossible | ⟨member, kind⟩ := back kind r found
    · simp at impossible
    · exact ⟨by simpa using (same.mem r).mp member, kind⟩

/-! ### The observation -/

theorem observeAzure_returns {ob : Observation} {e : Option GoError} (run : (observeAzure p a).Returns trace (ob, e))
    (known : ob.known) :
    ∃ reply later references resources observed, trace = ⟨.deploymentGet a.id, reply⟩ :: later ∧ deploymentOver reply ∧
      azureReferences p a = .ok references ∧ (azureInventory p a false).Returns later (.ok resources) ∧
      azureObservation p a resources = .ok observed ∧ e = none ∧
      ob = { observed with interrupted := !observed.present && a.offering.spot && azureConfirmedPreemption p a } := by
  unfold observeAzure at run
  split at run
  · cases run.of_pure
    cases known
  rename_i references recorded
  rw [returns_bind] at run
  obtain ⟨first, second, result, rfl, asked, run⟩ := run
  match result, asked, run with
  | .error failed, _, run | .ok false, _, run =>
    cases run.of_pure
    cases known
  | .ok true, asked, run =>
    obtain ⟨reply, rfl, finished⟩ := azureTerminal_returns asked
    dsimp only at run
    rw [returns_bind] at run
    obtain ⟨reads, rest, result, rfl, inventory, run⟩ := run
    cases result with
    | error failed =>
      cases run.of_pure
      cases known
    | ok resources =>
      dsimp only at run
      split at run
      · cases run.of_pure
        cases known
      · rename_i observed observes
        obtain ⟨rfl, same⟩ := returns_pure.mp run
        cases same
        exact ⟨reply, reads, references, resources, observed, by simp, finished, recorded, inventory, observes, rfl,
          rfl⟩

theorem azureObservation_ok {observed : Observation} (observes : azureObservation p a resources = .ok observed) :
    observed.present = decide (resources.length > 0) := by
  unfold azureObservation at observes
  split at observes
  · cases observes
  dsimp only at observes
  split at observes
  · cases observes
  split at observes
  · cases observes
  cases observes
  rfl

end Azure

/-! ## Compute Engine -/

section Gcp

variable {p : Command} {a : Allocation} {trace : List (Exchange CloudCalls)}

theorem gcpVM_none {reply : Except CloudError GcpInstance} (read : gcpVM p a reply = .ok none) :
    ∃ e, reply = .error e ∧ missingGCP e := by
  cases reply with
  | error e =>
    refine ⟨e, rfl, ?_⟩
    by_contra other
    simp [gcpVM, other] at read
  | ok vm =>
    simp only [gcpVM] at read
    repeat' split at read
    all_goals cases read

theorem gcpDisk_none {reply : Except CloudError GcpDisk} (read : gcpDisk p a reply = .ok none) :
    ∃ e, reply = .error e ∧ missingGCP e := by
  cases reply with
  | error e =>
    refine ⟨e, rfl, ?_⟩
    by_contra other
    simp [gcpDisk, other] at read
  | ok disk =>
    simp only [gcpDisk] at read
    repeat' split at read
    all_goals cases read

theorem gcpInventory_returns {inventory : GcpInventory} (run : (gcpInventory p a).Returns trace (.ok inventory)) :
    ∃ vm disk, trace = [⟨.gcpInstance a.offering.zone a.id, vm⟩, ⟨.gcpDisk a.offering.zone a.id, disk⟩] ∧
      gcpVM p a vm = .ok inventory.vm ∧ gcpDisk p a disk = .ok inventory.disk := by
  unfold gcpInventory at run
  split at run
  · simp at run
  rw [returns_ask] at run
  obtain ⟨vm, later, rfl, run⟩ := run
  split at run
  · simp at run
  rename_i foundVM readVM
  rw [returns_ask] at run
  obtain ⟨disk, later, rfl, run⟩ := run
  split at run
  · simp at run
  rename_i foundDisk readDisk
  obtain ⟨rfl, same⟩ := returns_pure.mp run
  cases same
  exact ⟨vm, disk, rfl, readVM, readDisk⟩

/-- An operation among those a listing returned. -/
def Listed (pages : List (Except CloudError GcpOperationList)) (op : GcpOperation) : Prop :=
  ∃ page, .ok page ∈ pages ∧ some op ∈ page.items

theorem countOperations_ok : ∀ {items : List (Option GcpOperation)} {count after : Nat},
    countOperations p a items count = .ok after →
      after = count ∨ ∃ op, some op ∈ items ∧ gcpCreateDone p a (some op)
  | [], count, after, counted => by
    cases counted
    exact .inl rfl
  | op :: rest, count, after, counted => by
    rw [countOperations] at counted
    split at counted
    · cases counted
    rename_i accepted
    simp only [not_or, Bool.not_eq_eq_eq_not, Bool.not_true, Bool.not_eq_false] at accepted
    cases op with
    | none => simp [gcpCreateDone] at accepted
    | some op => exact .inr ⟨op, List.mem_cons_self, accepted.2⟩

theorem countPages_ok : ∀ {pages : List (Except CloudError GcpOperationList)} {count after : Nat},
    countPages p a pages count = .ok after → after = count ∨ ∃ op, Listed pages op ∧ gcpCreateDone p a (some op)
  | [], count, after, counted => by
    cases counted
    exact .inl rfl
  | .error e :: rest, count, after, counted => by cases counted
  | .ok page :: rest, count, after, counted => by
    rw [countPages] at counted
    split at counted
    · cases counted
    split at counted
    · cases counted
    rename_i middle first
    obtain rfl | ⟨op, member, done⟩ := countOperations_ok first
    · obtain same | ⟨op, ⟨other, among, member⟩, done⟩ := countPages_ok counted
      · exact .inl same
      · exact .inr ⟨op, ⟨other, List.mem_cons_of_mem _ among, member⟩, done⟩
    · exact .inr ⟨op, ⟨page, List.mem_cons_self, member⟩, done⟩

theorem gcpCreateTerminal_returns (run : (gcpCreateTerminal p a).Returns trace none) :
    ∃ pages,
      trace = [⟨.gcpOperations a.offering.zone (.clientOperation (gcpRequestID p a "create")), pages⟩] ∧
        ((∃ op, Listed pages op ∧ gcpCreateDone p a (some op)) ∨ a.resourceID ≠ "") := by
  unfold gcpCreateTerminal at run
  split at run
  · simp at run
  rw [returns_ask] at run
  obtain ⟨pages, later, rfl, run⟩ := run
  split at run
  · simp at run
  rename_i count counted
  split at run
  · simp at run
  rename_i confirmed
  obtain ⟨rfl, _⟩ := returns_pure.mp run
  refine ⟨pages, rfl, ?_⟩
  obtain rfl | done := countPages_ok counted
  · exact .inr fun empty => confirmed ⟨rfl, empty⟩
  · exact .inl done

theorem observeGCP_returns {ob : Observation} {e : Option GoError} (run : (observeGCP p a).Returns trace (ob, e))
    (known : ob.known) :
    ∃ first second third inventory, trace = first ++ second ++ third ∧ (gcpCreateTerminal p a).Returns first none ∧
      (gcpInventory p a).Returns second (.ok inventory) ∧ e = none ∧
      ob.present = (inventory.vm.isSome || inventory.disk.isSome) ∧
      (ob.interrupted → ob.present = false ∧ a.offering.spot ∧ (gcpConfirmedPreemption p a).Returns third true) := by
  unfold observeGCP at run
  split at run
  · cases run.of_pure
    cases known
  rw [returns_bind] at run
  obtain ⟨first, later, result, rfl, created, run⟩ := run
  cases result with
  | some failed =>
    cases run.of_pure
    cases known
  | none =>
    dsimp only at run
    rw [returns_bind] at run
    obtain ⟨second, third, result, rfl, inventory, run⟩ := run
    cases result with
    | error failed =>
      cases run.of_pure
      cases known
    | ok found =>
      dsimp only at run
      split at run
      · rename_i absent
        simp only [Bool.and_eq_true, Bool.not_eq_eq_eq_not, Bool.not_true] at absent
        rw [returns_bind] at run
        obtain ⟨third, rest, interrupted, rfl, preempted, run⟩ := run
        obtain ⟨rfl, same⟩ := returns_pure.mp run
        cases same
        refine ⟨first, second, third, found, by simp, created, inventory, rfl, rfl, ?_⟩
        rintro rfl
        exact ⟨absent.1, absent.2, preempted⟩
      · obtain ⟨rfl, same⟩ := returns_pure.mp run
        cases same
        exact ⟨first, second, [], found, by simp, created, inventory, rfl, rfl, nofun⟩

end Gcp

end RunnerScout.Provider
