import RunnerScout.Provider.Create
import RunnerScout.Provider.Evidence
import RunnerScout.Provider.ProvenAbsence

/-! # Definitive outcomes of a create call

Two error values let the controller forget a create attempt: one says that nothing
was sent, the other that the cloud had no capacity and that nothing is left behind.
Every other error of a create call is plain, and the attempt stays open.
-/

namespace RunnerScout.Provider

open Interaction Program Lifecycle

variable {allow : Bool} {reads : List (Exchange CloudCalls)} {creation : Creation} {result : Option GoError}
  {script : Script} {op : GcpOperation}

/-! ## Errors without a sentinel -/

section Plain

variable {p : Command} {a : Allocation} {e : GoError}

theorem azureTagSnapshot_error : ∀ {entries : List (Sigma fun _ : String => Option String)} {seen : List String}
    {result : GoMap String String}, azureTagSnapshot.go entries seen result = .error e → e.wraps = []
  | ⟨name, none⟩ :: rest, seen, result, failed => by
    cases failed
    rfl
  | ⟨name, some value⟩ :: rest, seen, result, failed => by
    simp only [azureTagSnapshot.go] at failed
    split at failed
    · cases failed
      rfl
    · exact azureTagSnapshot_error failed

theorem addReference_error {reference : ResourceReference} :
    ∀ {specs : List AzureResourceSpec} {valid : Bool} {result : GoMap String ResourceReference},
      addReference p a reference specs valid result = .error e → e.wraps = []
  | spec :: rest, valid, result, failed => by
    rw [addReference] at failed
    split at failed
    · exact addReference_error failed
    split at failed
    · cases failed
      rfl
    split at failed
    · cases failed
      rfl
    · exact addReference_error failed

theorem addReferences_error : ∀ {recorded : List ResourceReference} {result : GoMap String ResourceReference},
    addReferences p a recorded result = .error e → e.wraps = []
  | reference :: rest, result, failed => by
    rw [addReferences] at failed
    split at failed
    · rename_i first
      cases failed
      exact addReference_error first
    · cases failed
      rfl
    · exact addReferences_error failed

theorem azureReferences_error (failed : azureReferences p a = .error e) : e.wraps = [] := by
  unfold azureReferences at failed
  split at failed
  · cases failed
    rfl
  split at failed
  · rename_i merges
    cases failed
    exact State.mergeResources_error merges
  · exact addReferences_error failed

theorem azureOwnership_error {tags : GoMap String String} (failed : azureOwnership p tags a allow = some e) :
    e.wraps = [] := by
  unfold azureOwnership at failed
  split at failed <;> cases failed
  rfl

theorem checkListed_error {resource : AzureResource} :
    ∀ {specs : List AzureResourceSpec} {valid : Bool} {seen : List String},
      checkListed p a allow resource specs valid seen = .error e → e.wraps = []
  | spec :: rest, valid, seen, failed => by
    rw [checkListed] at failed
    split at failed
    · exact checkListed_error failed
    split at failed
    · cases failed
      rfl
    split at failed
    · rename_i foreign
      cases failed
      exact azureOwnership_error foreign
    · exact checkListed_error failed

theorem checkAllListed_error : ∀ {listed : List AzureResource} {seen : List String},
    checkAllListed p a allow listed seen = .error e → e.wraps = []
  | resource :: rest, seen, failed => by
    rw [checkAllListed] at failed
    split at failed
    · rename_i first
      cases failed
      exact checkListed_error first
    · cases failed
      rfl
    · exact checkAllListed_error failed

theorem readResource_error {references : GoMap String ResourceReference} {spec : AzureResourceSpec}
    {resource : AzureGeneric} (failed : readResource p a allow references spec resource = .error e) : e.wraps = [] := by
  unfold readResource at failed
  split at failed
  · cases failed
    rfl
  split at failed
  · rename_i tags
    cases failed
    exact azureTagSnapshot_error tags
  split at failed
  · rename_i foreign
    cases failed
    exact azureOwnership_error foreign
  split at failed
  · cases failed
    rfl
  dsimp only at failed
  split at failed
  · cases failed
    rfl
  repeat' split at failed
  all_goals cases failed
  all_goals rfl

theorem readSpecs_error {references : GoMap String ResourceReference} {seen : List String} :
    ∀ {specs : List AzureResourceSpec} {result : List AzureResource} {trace : List (Exchange CloudCalls)},
      (readSpecs p a allow references seen specs result).Returns trace (.error e) → e.wraps = []
  | [], result, trace, run => by simp [readSpecs] at run
  | spec :: rest, result, trace, run => by
    rw [readSpecs, returns_ask] at run
    obtain ⟨reply, later, rfl, run⟩ := run
    cases reply with
    | error e =>
      dsimp only at run
      split at run
      · split at run
        · cases run.of_pure
          rfl
        · exact readSpecs_error run
      · cases run.of_pure
        rfl
    | ok resource =>
      dsimp only at run
      split at run
      · rename_i refused
        cases run.of_pure
        exact readResource_error refused
      · exact readSpecs_error run

theorem azureInventory_error {trace : List (Exchange CloudCalls)}
    (run : (azureInventory p a allow).Returns trace (.error e)) : e.wraps = [] := by
  unfold azureInventory at run
  split at run
  · rename_i refused
    cases run.of_pure
    exact azureReferences_error refused
  rw [returns_ask] at run
  obtain ⟨pages, later, rfl, run⟩ := run
  split at run
  · cases run.of_pure
    rfl
  split at run
  · rename_i refused
    cases run.of_pure
    exact checkAllListed_error refused
  · exact readSpecs_error run

theorem observedReferences_error {retained : GoMap String ResourceReference} :
    ∀ {found : List (AzureResource × AzureResourceSpec)} {references : List ResourceReference},
      observedReferences retained found references = .error e → e.wraps = []
  | (resource, spec) :: rest, references, failed => by
    rw [observedReferences] at failed
    split at failed
    · rename_i first
      cases failed
      unfold observedReference at first
      repeat' split at first
      all_goals cases first
      rfl
    · exact observedReferences_error failed

theorem azureObservation_error {resources : List AzureResource} (failed : azureObservation p a resources = .error e) :
    e.wraps = [] := by
  unfold azureObservation at failed
  split at failed
  · rename_i refused
    cases failed
    exact azureReferences_error refused
  dsimp only at failed
  split at failed
  · rename_i refused
    cases failed
    exact observedReferences_error refused
  split at failed
  · rename_i refused
    cases failed
    exact State.mergeResources_error refused
  · cases failed

theorem diskBound_error {disk : AzureGeneric} (failed : diskBound p a disk = .error e) : e.wraps = [] := by
  unfold diskBound at failed
  split at failed
  · cases failed
    rfl
  split at failed
  · rename_i tags
    cases failed
    exact azureTagSnapshot_error tags
  repeat' split at failed
  all_goals cases failed
  all_goals rfl

theorem vmBound_error {vm : AzureGeneric} (failed : vmBound p a vm = .error e) : e.wraps = [] := by
  unfold vmBound at failed
  repeat' split at failed
  all_goals cases failed
  all_goals rfl

theorem azureDiskBinding_error {trace : List (Exchange CloudCalls)}
    (run : (azureDiskBinding p a).Returns trace (.error e)) : e.wraps = [] := by
  have plain {result : Except GoError AzureDiskBinding} {trace : List (Exchange CloudCalls)}
      (ends : (pure result : Program CloudCalls _).Returns trace (.error e))
      (errors : ∀ e, result = .error e → e.wraps = []) : e.wraps = [] := by
    obtain ⟨_, same⟩ := returns_pure.mp ends
    exact errors e same.symm
  have literal {text : String} (e : GoError) (same : (.error (.new text) : Except GoError AzureDiskBinding) = .error e) :
      e.wraps = [] := by
    cases same
    rfl
  unfold azureDiskBinding at run
  split at run
  · rename_i refused
    exact plain run fun e same => by
      cases same
      exact azureReferences_error refused
  rw [returns_ask] at run
  obtain ⟨disk, later, rfl, run⟩ := run
  cases disk with
  | error failed => exact plain run literal
  | ok disk =>
    dsimp only at run
    split at run
    · rename_i refused
      exact plain run fun e same => by
        cases same
        exact diskBound_error refused
    rw [returns_ask] at run
    obtain ⟨vm, later, rfl, run⟩ := run
    cases vm with
    | error failed => exact plain run literal
    | ok vm =>
      dsimp only at run
      split at run
      · rename_i refused
        exact plain run fun e same => by
          cases same
          exact vmBound_error refused
      split at run
      · exact plain run literal
      · simp at run

theorem tagOwnDisk_error {proof : Allocation} {binding : AzureDiskBinding} {receipt after : Creation}
    {trace : List (Exchange CloudCalls)} (run : (tagOwnDisk p a proof binding receipt).Returns trace (after, some e)) :
    e.wraps = [] := by
  unfold tagOwnDisk at run
  dsimp only at run
  split at run
  · simp at run
  rw [returns_ask] at run
  obtain ⟨tagged, later, rfl, run⟩ := run
  cases tagged with
  | some failed =>
    cases run.of_pure
    rfl
  | none =>
    dsimp only at run
    rw [returns_bind] at run
    obtain ⟨first, second, result, rfl, _, run⟩ := run
    cases result with
    | error failed =>
      cases run.of_pure
      rfl
    | ok confirmed =>
      dsimp only at run
      split at run
      · cases run.of_pure
        rfl
      · simp at run

theorem finishAzureDiskOwnership_error {receipt : Creation} {trace : List (Exchange CloudCalls)}
    (run : (finishAzureDiskOwnership p a).Returns trace (receipt, some e)) : e.wraps = [] := by
  unfold finishAzureDiskOwnership at run
  dsimp only at run
  rw [returns_bind] at run
  obtain ⟨first, second, result, rfl, bound, run⟩ := run
  cases result with
  | error failed =>
    cases run.of_pure
    exact azureDiskBinding_error bound
  | ok binding =>
    dsimp only at run
    split at run
    · rename_i refused
      cases run.of_pure
      exact State.mergeResources_error refused
    rw [returns_bind] at run
    obtain ⟨third, fourth, result, rfl, inventory, run⟩ := run
    cases result with
    | error failed =>
      cases run.of_pure
      exact azureInventory_error inventory
    | ok resources =>
      dsimp only at run
      split at run
      · rename_i refused
        cases run.of_pure
        exact azureObservation_error refused
      split at run
      · cases run.of_pure
        rfl
      · exact tagOwnDisk_error run

theorem awsReceived_error {expected : List String} {i : AwsInstance} (failed : (awsReceived expected i).2 = some e) :
    e.wraps = [] := by
  unfold awsReceived at failed
  dsimp only at failed
  split at failed
  · rename_i refused
    cases failed
    exact State.mergeResources_error refused
  repeat' split at failed
  all_goals cases failed
  all_goals rfl

end Plain

/-! ## What a capacity rejection rests on -/

/-- The operation a create request was answered with, or one read again. -/
def shownOperation : Exchange AdapterCalls → Option GcpOperation
  | ⟨.gcpInsert _ _ _, .ok op⟩ | ⟨.read (.gcpOperation _ _), .ok op⟩ => some op
  | _ => none

/-- The cloud itself named a lack of capacity and, where it may have begun to create
    something, showed afterwards that nothing is left. -/
inductive CapacityRejected (p : Command) (a : Allocation) (trace : List (Exchange AdapterCalls)) : Prop where
  | aws {input : AwsRunInput} {e : CloudError} (kind : p.config.kind = "aws")
      (answered : (⟨.runInstances input, .error e⟩ : Exchange AdapterCalls) ∈ trace)
      (code : awsMissing e "InsufficientInstanceCapacity")
  | gcp {before : List (Exchange AdapterCalls)} {x : Exchange AdapterCalls} {op : GcpOperation} {vm disk : CloudError}
      (kind : p.config.kind ≠ "aws" ∧ p.config.kind ≠ "azure") (answered : shownOperation x = some op)
      (done : op.status = "DONE") (target : gcpMatches p op.targetLink (gcpResource p a "instances" a.id))
      (code : gcpCapacityFailure op) (noVM : missingGCP vm) (noDisk : missingGCP disk)
      (order : trace = before ++ [x, ⟨.read (.gcpInstance a.offering.zone a.id), .error vm⟩,
        ⟨.read (.gcpDisk a.offering.zone a.id), .error disk⟩])
  | azure {before after : List (Exchange AdapterCalls)} {deployment : AzureDeployment} {e : AzureErrorResponse}
      (kind : p.config.kind = "azure") (failed : deployment.provisioningState = some "Failed")
      (reason : deployment.error = some e) (code : azureCapacityFailure e)
      (order : trace = before ++ ⟨.read (.deploymentGet a.id), .ok deployment⟩ :: after)
      (nothing : ∀ spec ∈ azureSpecs a, ∃ e, azureResourceMissing e ∧
        (⟨.read (.getByID (azureID p spec.resourceType spec.name) spec.version), .error e⟩ :
          Exchange AdapterCalls) ∈ after)

/-- Errors from outside the adapter: of the hook that lists peers, and of EC2 credentials. -/
def outsideError : Exchange AdapterCalls → Option GoError
  | ⟨.networkPeers _, .error e⟩ => some e
  | ⟨.read (.awsSession _), some e⟩ => some e
  | _ => none

/-- What an outcome says about the call that ended in it. -/
structure Justified (p : Command) (a : Allocation) (trace : List (Exchange AdapterCalls)) (e : Option GoError) : Prop where
  noEffect : errorIs e .noEffect → ∀ x ∈ trace, x.request.creates = false
  capacity : errorIs e .capacity → CapacityRejected p a trace

section Outcome

variable {p : Command} {a : Allocation} {trace earlier : List (Exchange AdapterCalls)} {e : GoError}

theorem CapacityRejected.prepend (earlier : List (Exchange AdapterCalls)) (rejected : CapacityRejected p a trace) :
    CapacityRejected p a (earlier ++ trace) := by
  cases rejected with
  | aws kind answered code => exact .aws kind (List.mem_append_right _ answered) code
  | gcp kind answered done target code noVM noDisk order =>
    exact .gcp kind answered done target code noVM noDisk (by rw [order, List.append_assoc])
  | azure kind failed reason code order nothing =>
    exact .azure kind failed reason code (by rw [order, List.append_assoc]) nothing

theorem Justified.prepend {e : Option GoError} (justified : Justified p a trace e)
    (harmless : ∀ x ∈ earlier, x.request.creates = false) : Justified p a (earlier ++ trace) e where
  noEffect := by
    intro named x member
    obtain before | now := List.mem_append.mp member
    · exact harmless x before
    · exact justified.noEffect named x now
  capacity := fun named => (justified.capacity named).prepend earlier

theorem justified_success : Justified p a trace none :=
  ⟨nofun, nofun⟩

theorem justified_plain (plain : e.wraps = []) : Justified p a trace (some e) := by
  constructor <;> simp [errorIs, plain]

theorem justified_nothing (harmless : ∀ x ∈ trace, x.request.creates = false)
    (other : errorIs (some e) .capacity = false) : Justified p a trace (some e) :=
  ⟨fun _ => harmless, fun named => by simp [other] at named⟩

theorem creates_reading : ∀ x ∈ reads.map Read, x.request.creates = false := by
  intro x member
  obtain ⟨y, _, rfl⟩ := List.mem_map.mp member
  rfl

/-- A call that ends with an error of the adapter's own. -/
theorem justified_failed {text : String}
    (run : (pure (failed text) : Program AdapterCalls _).Returns trace (creation, result)) :
    Justified p a earlier result := by
  cases run.of_pure
  exact justified_plain rfl

/-! ## EC2 -/

theorem createAWS_justified (kind : p.config.kind = "aws")
    (run : (createAWS p a script).Returns trace (creation, result))
    (outside : ∀ x ∈ trace, errorIs (outsideError x) .capacity = false) : Justified p a trace result := by
  unfold createAWS at run
  split at run
  · exact justified_failed run
  rw [returns_ask] at run
  obtain ⟨session, rest, rfl, run⟩ := run
  cases session with
  | some refused =>
    obtain ⟨rfl, same⟩ := returns_pure.mp run
    cases same
    exact justified_nothing (by simp [AdapterRequest.creates]) (outside _ List.mem_cons_self)
  | none =>
    dsimp only at run
    rw [returns_bind] at run
    obtain ⟨first, rest, inventory, rfl, listed, run⟩ := run
    obtain ⟨reads, rfl, _⟩ := reading_returns listed
    cases inventory with
    | error failed => exact justified_failed run
    | ok inventory =>
      dsimp only at run
      split at run
      · exact justified_failed run
      rw [returns_ask] at run
      obtain ⟨images, rest, rfl, run⟩ := run
      -- up to here the cloud was only read
      have harmless : ∀ x ∈ (⟨.read (.awsSession a.offering.region), none⟩ : Exchange AdapterCalls) ::
          (reads.map Read ++ [⟨.read (.describeImages a.offering.image), images⟩]), x.request.creates = false := by
        intro x member
        simp only [List.mem_cons, List.mem_append, List.not_mem_nil, or_false] at member
        rcases member with rfl | read | rfl
        · rfl
        · exact creates_reading x read
        · rfl
      split at run
      · obtain ⟨rfl, same⟩ := returns_pure.mp run
        cases same
        exact justified_nothing harmless rfl
      rw [returns_ask] at run
      obtain ⟨launched, rest, rfl, run⟩ := run
      cases launched with
      | error refused =>
        dsimp only at run
        split at run
        · rename_i code
          cases run.of_pure
          exact ⟨nofun, fun _ => .aws kind (List.mem_cons_of_mem _ (List.mem_append_right _
            (List.mem_cons_of_mem _ List.mem_cons_self))) code⟩
        · exact justified_failed run
      | ok response =>
        dsimp only at run
        split at run
        · exact justified_failed run
        rw [returns_bind] at run
        obtain ⟨polled, rest, i, rfl, _, run⟩ := run
        obtain ⟨_, same⟩ := returns_pure.mp run
        cases result with
        | none => exact justified_success
        | some e => exact justified_plain (awsReceived_error (congrArg Prod.snd same).symm)

/-! ## Compute Engine -/

/-- The end of a run in which an operation that lacked capacity left nothing behind. -/
structure Exhausted (p : Command) (a : Allocation) (op : GcpOperation) (reads : List (Exchange AdapterCalls)) : Prop where
  done : op.status = "DONE"
  target : gcpMatches p op.targetLink (gcpResource p a "instances" a.id)
  code : gcpCapacityFailure op
  nothing : ∃ vm disk, missingGCP vm ∧ missingGCP disk ∧
    reads = [⟨.read (.gcpInstance a.offering.zone a.id), .error vm⟩,
      ⟨.read (.gcpDisk a.offering.zone a.id), .error disk⟩]

theorem gcpOperationDone_returns (run : (gcpOperationDone p a "create" op).Returns trace (some e)) :
    e.wraps = [] ∨ (e = errCapacity ∧ gcpCapacityFailure op ∧ ∃ vm disk, missingGCP vm ∧ missingGCP disk ∧
      trace = [⟨.read (.gcpInstance a.offering.zone a.id), .error vm⟩,
        ⟨.read (.gcpDisk a.offering.zone a.id), .error disk⟩]) := by
  have literal {text : String} {trace : List (Exchange AdapterCalls)}
      (run : (pure (some (.new text)) : Program AdapterCalls (Option GoError)).Returns trace (some e)) : e.wraps = [] := by
    cases run.of_pure
    rfl
  unfold gcpOperationDone at run
  split at run
  · split at run
    · rename_i capacity
      rw [returns_bind] at run
      obtain ⟨first, second, inventory, rfl, listed, run⟩ := run
      obtain ⟨reads, rfl, returned⟩ := reading_returns listed
      split at run
      · obtain ⟨rfl, same⟩ := returns_pure.mp run
        cases same
        obtain ⟨vm, disk, rfl, readVM, readDisk⟩ := gcpInventory_returns returned
        obtain ⟨vmError, rfl, noVM⟩ := gcpVM_none readVM
        obtain ⟨diskError, rfl, noDisk⟩ := gcpDisk_none readDisk
        exact .inr ⟨rfl, capacity.2, vmError, diskError, noVM, noDisk, rfl⟩
      · exact .inl (literal run)
    · exact .inl (literal run)
  · simp at run

theorem gcpOperationTurn_returns {operationName : String} {pending : Program AdapterCalls (Option GoError)}
    (run : (gcpOperationTurn p a "create" "instances" a.id operationName op pending).Returns trace (some e)) :
    e.wraps = [] ∨ (e = errCapacity ∧ Exhausted p a op trace) ∨ pending.Returns trace (some e) := by
  unfold gcpOperationTurn at run
  split at run
  · cases run.of_pure
    exact .inl rfl
  rename_i own
  simp only [gcpOperationOwn, Bool.not_eq_eq_eq_not, Bool.not_true, Bool.not_eq_false, Bool.and_eq_true] at own
  split at run
  · rename_i done
    obtain plain | ⟨capacity, code, nothing⟩ := gcpOperationDone_returns run
    · exact .inl plain
    · exact .inr (.inl ⟨capacity, done, own.2, code, nothing⟩)
  split at run
  · cases run.of_pure
    exact .inl rfl
  · exact .inr (.inr run)

/-- Waiting for a create operation ends in a plain error, or an operation that was
    shown lacked capacity and left nothing behind. -/
theorem waitGCPOperation_returns :
    ∀ {polls : Nat} {operationName : String} {op : GcpOperation} {trace : List (Exchange AdapterCalls)},
      (waitGCPOperation p a "create" "instances" a.id polls operationName op).Returns trace (some e) →
        e.wraps = [] ∨ (e = errCapacity ∧ (Exhausted p a op trace ∨ ∃ before x last reads,
          shownOperation x = some last ∧ trace = before ++ x :: reads ∧ Exhausted p a last reads))
  | 0, operationName, op, trace, run => by
    obtain plain | ⟨capacity, exhausted⟩ | pending := gcpOperationTurn_returns run
    · exact .inl plain
    · exact .inr ⟨capacity, .inl exhausted⟩
    · cases pending.of_pure
      exact .inl rfl
  | polls + 1, operationName, op, trace, run => by
    obtain plain | ⟨capacity, exhausted⟩ | pending := gcpOperationTurn_returns run
    · exact .inl plain
    · exact .inr ⟨capacity, .inl exhausted⟩
    rw [returns_ask] at pending
    obtain ⟨waited, rest, rfl, pending⟩ := pending
    cases waited with
    | false =>
      cases pending.of_pure
      exact .inl rfl
    | true =>
      dsimp only at pending
      rw [returns_ask] at pending
      obtain ⟨polled, rest, rfl, pending⟩ := pending
      cases polled with
      | error failed =>
        cases pending.of_pure
        exact .inl rfl
      | ok next =>
        obtain plain | ⟨capacity, exhausted | ⟨before, x, last, reads, shown, rfl, exhausted⟩⟩ :=
          waitGCPOperation_returns pending
        · exact .inl plain
        · exact .inr ⟨capacity, .inr ⟨[⟨.pause, true⟩], _, next, rest, rfl, rfl, exhausted⟩⟩
        · exact .inr ⟨capacity, .inr ⟨⟨.pause, true⟩ :: _ :: before, x, last, reads, shown, rfl, exhausted⟩⟩

theorem Exhausted.rejected {before reads : List (Exchange AdapterCalls)} {x : Exchange AdapterCalls}
    (exhausted : Exhausted p a op reads) (shown : shownOperation x = some op)
    (kind : p.config.kind ≠ "aws" ∧ p.config.kind ≠ "azure") : CapacityRejected p a (before ++ x :: reads) := by
  obtain ⟨vm, disk, noVM, noDisk, rfl⟩ := exhausted.nothing
  exact .gcp kind shown exhausted.done exhausted.target exhausted.code noVM noDisk rfl

theorem createGCP_justified (kind : p.config.kind ≠ "aws" ∧ p.config.kind ≠ "azure")
    (run : (createGCP p a script).Returns trace (creation, result)) : Justified p a trace result := by
  unfold createGCP at run
  split at run
  · exact justified_failed run
  rw [returns_bind] at run
  obtain ⟨first, rest, inventory, rfl, listed, run⟩ := run
  obtain ⟨reads, rfl, _⟩ := reading_returns listed
  split at run
  · rw [returns_ask] at run
    obtain ⟨inserted, rest, rfl, run⟩ := run
    cases inserted with
    | error refused => exact justified_failed run
    | ok op =>
      dsimp only at run
      rw [returns_bind] at run
      obtain ⟨waiting, rest, ended, rfl, waited, run⟩ := run
      cases ended with
      | some failed =>
        obtain ⟨rfl, same⟩ := returns_pure.mp run
        cases same
        rw [List.append_nil]
        obtain plain | ⟨rfl, exhausted | ⟨before, x, last, after, shown, rfl, exhausted⟩⟩ :=
          waitGCPOperation_returns waited
        · exact justified_plain plain
        · exact ⟨nofun, fun _ => exhausted.rejected rfl kind⟩
        · refine ⟨nofun, fun _ => ?_⟩
          rw [← List.cons_append, ← List.append_assoc]
          exact exhausted.rejected shown kind
      | none =>
        dsimp only at run
        split at run
        · cases run.of_pure
          exact justified_success
        · rw [returns_bind] at run
          obtain ⟨_, _, _, _, _, run⟩ := run
          cases run.of_pure
          exact justified_success
  · exact justified_failed run

/-! ## Azure -/

theorem deploymentCapacityRejected_returns {id : String} (run : (deploymentCapacityRejected id).Returns reads true) :
    ∃ deployment e, reads = [⟨.deploymentGet id, .ok deployment⟩] ∧ deployment.provisioningState = some "Failed" ∧
      deployment.error = some e ∧ azureCapacityFailure e := by
  unfold deploymentCapacityRejected at run
  rw [returns_ask] at run
  obtain ⟨reply, later, rfl, run⟩ := run
  cases reply with
  | error failed => simp at run
  | ok deployment =>
    dsimp only at run
    split at run
    · simp at run
    rename_i state
    obtain ⟨rfl, code⟩ := returns_pure.mp run
    cases found : deployment.error with
    | none => simp [found] at code
    | some e => exact ⟨deployment, e, rfl, by simpa using state, found, by simpa [found] using code.symm⟩

theorem azureDeploymentFailed_returns {failure : CloudError} (kind : p.config.kind = "azure")
    (run : (azureDeploymentFailed p a failure).Returns trace (creation, result)) :
    errorIs result .noEffect = false ∧ (errorIs result .capacity → CapacityRejected p a trace) := by
  have plain {trace : List (Exchange AdapterCalls)}
      (run : (pure (failed ("Azure deployment commitment unknown: " ++ failure.text)) : Program AdapterCalls _).Returns
        trace (creation, result)) : errorIs result .noEffect = false ∧ errorIs result .capacity = false := by
    cases run.of_pure
    exact ⟨rfl, rfl⟩
  unfold azureDeploymentFailed at run
  dsimp only at run
  rw [returns_bind] at run
  obtain ⟨first, rest, rejected, rfl, asked, run⟩ := run
  obtain ⟨reads, rfl, returned⟩ := reading_returns asked
  cases rejected with
  | false => exact ⟨(plain run).1, by simp [(plain run).2]⟩
  | true =>
    dsimp only at run
    rw [returns_bind] at run
    obtain ⟨second, rest, inventory, rfl, listed, run⟩ := run
    obtain ⟨direct, rfl, found⟩ := reading_returns listed
    split at run
    · obtain ⟨rfl, same⟩ := returns_pure.mp run
      cases same
      obtain ⟨deployment, e, rfl, state, reason, code⟩ := deploymentCapacityRejected_returns returned
      obtain ⟨references, pages, later, _, rfl, paths⟩ := azureInventory_returns found
      refine ⟨rfl, fun _ => @CapacityRejected.azure p a _ [] _ _ _ kind state reason code rfl fun spec member => ?_⟩
      obtain ⟨e, answered, missing⟩ := paths.all_missing spec member
      refine ⟨e, missing, ?_⟩
      rw [List.append_nil]
      exact List.mem_map.mpr ⟨_, List.mem_cons_of_mem _ answered, rfl⟩
    · exact ⟨(plain run).1, by simp [(plain run).2]⟩

/-- The end of a check with an error of its own. -/
theorem check_error {text : String}
    (run : (pure (some (.new text)) : Program CloudCalls (Option GoError)).Returns reads (some e)) : e.wraps = [] := by
  cases run.of_pure
  rfl

theorem requireVacantResources_error : ∀ {specs : List AzureResourceSpec} {reads : List (Exchange CloudCalls)},
    (requireVacantResources p specs).Returns reads (some e) → e.wraps = []
  | [], reads, run => by simp [requireVacantResources] at run
  | spec :: rest, reads, run => by
    rw [requireVacantResources, returns_ask] at run
    obtain ⟨reply, later, rfl, run⟩ := run
    cases reply with
    | error failed =>
      dsimp only at run
      split at run
      · exact requireVacantResources_error run
      · exact check_error run
    | ok resource => exact check_error run

theorem requireVacantCreation_error (run : (requireVacantCreation p a).Returns reads (some e)) : e.wraps = [] := by
  unfold requireVacantCreation at run
  rw [returns_ask] at run
  obtain ⟨reply, later, rfl, run⟩ := run
  cases reply with
  | error failed =>
    dsimp only at run
    split at run
    · exact check_error run
    split at run
    · exact requireVacantResources_error run
    · exact check_error run
  | ok deployment => exact check_error run

theorem validateAzureManagedImage_error {id : ArmResourceID}
    (run : (validateAzureManagedImage a id).Returns reads (some e)) : e.wraps = [] := by
  unfold validateAzureManagedImage at run
  rw [returns_ask] at run
  obtain ⟨reply, later, rfl, run⟩ := run
  cases reply with
  | error failed => exact check_error run
  | ok image =>
    dsimp only at run
    split at run
    · exact check_error run
    split at run
    · simp at run
    · exact check_error run

theorem validateAzureGalleryImageVersion_error {id : ArmResourceID}
    (run : (validateAzureGalleryImageVersion a id).Returns reads (some e)) : e.wraps = [] := by
  unfold validateAzureGalleryImageVersion at run
  split at run
  · exact check_error run
  split at run
  · exact check_error run
  rw [returns_ask] at run
  obtain ⟨version, later, rfl, run⟩ := run
  cases version with
  | error failed => exact check_error run
  | ok version =>
    dsimp only at run
    split at run
    · exact check_error run
    split at run
    · exact check_error run
    rw [returns_ask] at run
    obtain ⟨definition, later, rfl, run⟩ := run
    cases definition with
    | error failed => exact check_error run
    | ok definition =>
      dsimp only at run
      split at run
      · exact check_error run
      split at run
      · exact check_error run
      · simp at run

theorem validateAzureImage_error (run : (validateAzureImage p a).Returns reads (some e)) : e.wraps = [] := by
  unfold validateAzureImage at run
  split at run
  · exact check_error run
  split at run
  · exact check_error run
  split at run
  · exact validateAzureManagedImage_error run
  split at run
  · exact validateAzureGalleryImageVersion_error run
  · exact check_error run

theorem createAzure_justified (kind : p.config.kind = "azure")
    (run : (createAzure p a script).Returns trace (creation, result)) :
    Justified p a trace result := by
  unfold createAzure at run
  split at run
  · exact justified_failed run
  rw [returns_bind] at run
  obtain ⟨first, rest, vacant, rfl, asked, run⟩ := run
  obtain ⟨reads, rfl, preflight⟩ := reading_returns asked
  cases vacant with
  | some occupied =>
    cases run.of_pure
    exact justified_plain (requireVacantCreation_error preflight)
  | none =>
    dsimp only at run
    rw [returns_bind] at run
    obtain ⟨second, rest, valid, rfl, checked, run⟩ := run
    obtain ⟨direct, rfl, image⟩ := reading_returns checked
    cases valid with
    | some refused =>
      cases run.of_pure
      exact justified_plain (validateAzureImage_error image)
    | none =>
      dsimp only at run
      rw [returns_ask] at run
      obtain ⟨deployed, rest, rfl, run⟩ := run
      cases deployed with
      | some failure =>
        obtain ⟨sent, rejected⟩ := azureDeploymentFailed_returns kind run
        refine ⟨by simp [sent], fun named => ?_⟩
        exact ((rejected named).prepend [_]).prepend _ |>.prepend _
      | none =>
        obtain ⟨last, rfl, finished⟩ := reading_returns run
        cases result with
        | none => exact justified_success
        | some e => exact justified_plain (finishAzureDiskOwnership_error finished)

/-! ## The adapter -/

theorem overlayIdentity_returns {result : Except GoError (Option OverlayIdentity)}
    (run : (overlayIdentity p a).Returns trace result) :
    (∀ x ∈ trace, x.request.creates = false) ∧
      ∀ e, result = .error e → e.wraps = [] ∨ e = errNoEffect ∨ ∃ x ∈ trace, outsideError x = some e := by
  have ends {value : Except GoError (Option OverlayIdentity)} {trace : List (Exchange AdapterCalls)}
      (run : (pure value : Program AdapterCalls _).Returns trace result) : trace = [] ∧ result = value :=
    returns_pure.mp run
  unfold overlayIdentity at run
  split at run
  · obtain ⟨rfl, rfl⟩ := ends run
    exact ⟨by simp, nofun⟩
  split at run
  · obtain ⟨rfl, rfl⟩ := ends run
    exact ⟨by simp, fun e same => .inr (.inl (by cases same; rfl))⟩
  rw [returns_ask] at run
  obtain ⟨keyPair, rest, rfl, run⟩ := run
  cases keyPair with
  | error failed =>
    obtain ⟨rfl, rfl⟩ := ends run
    exact ⟨by simp [AdapterRequest.creates], fun e same => .inl (by cases same; rfl)⟩
  | ok keyPair =>
    dsimp only at run
    rw [returns_ask] at run
    obtain ⟨token, rest, rfl, run⟩ := run
    cases token with
    | error failed =>
      obtain ⟨rfl, rfl⟩ := ends run
      exact ⟨by simp [AdapterRequest.creates], fun e same => .inl (by cases same; rfl)⟩
    | ok token =>
      dsimp only at run
      rw [returns_ask] at run
      obtain ⟨peers, rest, rfl, run⟩ := run
      cases peers with
      | error failed =>
        obtain ⟨rfl, rfl⟩ := ends run
        refine ⟨by simp [AdapterRequest.creates], fun e same => .inr (.inr ?_)⟩
        cases same
        exact ⟨⟨.networkPeers a, .error failed⟩, by simp, rfl⟩
      | ok peers =>
        obtain ⟨rfl, rfl⟩ := ends run
        exact ⟨by simp [AdapterRequest.creates], nofun⟩

theorem createOn_justified (run : (createOn p a script).Returns trace (creation, result))
    (outside : ∀ x ∈ trace, errorIs (outsideError x) .capacity = false) : Justified p a trace result := by
  unfold createOn at run
  split at run
  · rename_i kind
    exact createAWS_justified kind run outside
  rename_i notAWS
  split at run
  · rename_i kind
    exact createAzure_justified kind run
  · rename_i notAzure
    exact createGCP_justified ⟨notAWS, notAzure⟩ run

theorem validateName_error {name : String} (failed : validateName name = some e) : e.wraps = [] := by
  unfold validateName at failed
  split at failed <;> cases failed
  rfl

theorem validate_error (failed : p.validate = some e) : e.wraps = [] := by
  unfold Command.validate at failed
  split at failed
  · rename_i refused
    cases failed
    exact validateName_error refused
  repeat' split at failed
  all_goals cases failed
  all_goals rfl

theorem createWithResources_justified (run : (p.createWithResources a).Returns trace (creation, result))
    (outside : ∀ x ∈ trace, errorIs (outsideError x) .capacity = false) : Justified p a trace result := by
  unfold Command.createWithResources at run
  split at run
  · exact justified_failed run
  split at run
  · rename_i refused
    cases run.of_pure
    exact justified_plain (validateName_error refused)
  split at run
  · rename_i refused
    cases run.of_pure
    exact justified_plain (validate_error refused)
  split at run
  · obtain ⟨rfl, same⟩ := returns_pure.mp run
    cases same
    exact justified_nothing (by simp) rfl
  rw [returns_ask] at run
  obtain ⟨jit, rest, rfl, run⟩ := run
  cases jit with
  | error failed =>
    obtain ⟨rfl, same⟩ := returns_pure.mp run
    cases same
    exact justified_nothing (by simp [AdapterRequest.creates]) rfl
  | ok jit =>
    dsimp only at run
    split at run
    · obtain ⟨rfl, same⟩ := returns_pure.mp run
      cases same
      exact justified_nothing (by simp [AdapterRequest.creates]) rfl
    rw [returns_bind] at run
    obtain ⟨first, rest, overlay, rfl, identity, run⟩ := run
    obtain ⟨harmless, errors⟩ := overlayIdentity_returns identity
    have prepared : ∀ x ∈ (⟨.bootstrap a.id, .ok jit⟩ : Exchange AdapterCalls) :: first, x.request.creates = false :=
      List.forall_mem_cons.mpr ⟨rfl, harmless⟩
    cases overlay with
    | error failed =>
      obtain ⟨rfl, same⟩ := returns_pure.mp run
      cases same
      rw [List.append_nil]
      refine justified_nothing prepared ?_
      obtain plain | rfl | ⟨x, member, same⟩ := errors failed rfl
      · simp [errorIs, plain]
      · rfl
      · rw [← same]
        exact outside x (List.mem_cons_of_mem _ (List.mem_append_left _ member))
    | ok overlay =>
      dsimp only at run
      rw [returns_bind] at run
      obtain ⟨second, rest, ⟨received, ended⟩, rfl, created, run⟩ := run
      obtain ⟨rfl, same⟩ := returns_pure.mp run
      cases same
      rw [List.append_nil] at outside ⊢
      exact (createOn_justified created fun x member =>
        outside x (List.mem_cons_of_mem _ (List.mem_append_right _ member))).prepend prepared

/-- The two definitive errors of a create call are only returned for what they say, and
    every other failure after a create request is neither of them. -/
theorem definitive_outcome_sound {creation : Creation}
    (run : (p.createWithResources a).Returns trace (creation, some e))
    (outside : ∀ x ∈ trace, errorIs (outsideError x) .capacity = false) :
    (errorIs (some e) .noEffect → ∀ x ∈ trace, x.request.creates = false) ∧
      (errorIs (some e) .capacity → CapacityRejected p a trace) ∧
      ((∃ x ∈ trace, x.request.creates) → ¬ CapacityRejected p a trace →
        errorIs (some e) .noEffect = false ∧ errorIs (some e) .capacity = false) := by
  have justified := createWithResources_justified run outside
  refine ⟨justified.noEffect, justified.capacity, fun ⟨x, member, sent⟩ accepted => ⟨?_, ?_⟩⟩
  · by_contra named
    have harmless := justified.noEffect (by simpa using named) x member
    simp [harmless] at sent
  · by_contra named
    exact accepted (justified.capacity (by simpa using named))

end Outcome

/-! ## A zone without capacity -/

def unlaunched : Allocation :=
  { committedRecord with
    offering := { committedRecord.offering with image := "ami-1", architecture := "amd64", machine := "m7i.large" } }

def linuxImage : AwsImage where
  imageID := "ami-1"
  architecture := "x86_64"
  state := "available"
  rootDeviceType := "ebs"
  rootDeviceName := "/dev/xvda"
  blockDevices := [⟨"/dev/xvda", true⟩]

/-- An EC2 account with the image, and an answer to every launch. -/
def exhaustedZone (launch : Except CloudError (Option AwsRunOutput)) : (request : AdapterRequest) → AdapterReply request
  | .read (.describeImages _) => .ok (some [linuxImage])
  | .read request => bareAccount (.ok (some { items := [] })) request
  | .bootstrap _ => .ok "jit"
  | .runInstances _ => launch
  | .terminateInstances _ | .gcpInsert _ _ _ | .gcpDeleteInstance _ _ _ | .gcpDeleteDisk _ _ _ =>
    .error { text := "unavailable" }
  | .generateKey => .ok ⟨⟨List.replicate 32 1, rfl⟩, ⟨List.replicate 32 2, rfl⟩⟩
  | .generatePollToken => .ok ("token", ⟨List.replicate 32 3, rfl⟩)
  | .networkPeers _ => .ok []
  | .pause => true
  | .deleteVolume _ | .deleteNetworkInterface _ | .deploy _ _ _ | .beginDelete _ _ => none

def noCapacity : Except CloudError (Option AwsRunOutput) :=
  .error { text := "no capacity", api := true, code := "InsufficientInstanceCapacity" }

theorem definitive_outcome_sound_exhaustedZone :
    ((awsCommand.createWithResources unlaunched).respond (exhaustedZone noCapacity)).2 = ({}, some errCapacity) ∧
      CapacityRejected awsCommand unlaunched
        ((awsCommand.createWithResources unlaunched).respond (exhaustedZone noCapacity)).1 :=
  ⟨rfl, (definitive_outcome_sound
    (returns_respond (exhaustedZone noCapacity) (awsCommand.createWithResources unlaunched))
    (by decide +kernel)).2.1 rfl⟩

end RunnerScout.Provider
