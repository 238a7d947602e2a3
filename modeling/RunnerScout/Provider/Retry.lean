import RunnerScout.Provider.Outcome
import RunnerScout.Provider.Stepping

/-! # Retrying a create in another pool

After a definitive capacity rejection `Step` commits the same allocation to another
offering.  Two questions about the second attempt: whether the request it sends has
an identity of its own, and whether on Azure it is sent at all.
-/

namespace RunnerScout.Provider

open Interaction Program Lifecycle Placement

section Identity

variable {p : Command} {a : Allocation} {trace : List (Exchange AdapterCalls)} {request : AdapterRequest}

/-! ## What is sent -/

/-- What a cloud recognises a repeated create request by. -/
def AdapterRequest.identity : AdapterRequest → Option String
  | .runInstances input => some input.clientToken
  | .gcpInsert _ _ requestID => some requestID
  | _ => none

/-- The request that is answered: of several with one identity, the first. -/
def answered (earlier : List AdapterRequest) (request : AdapterRequest) : AdapterRequest :=
  (earlier.find? fun sent => sent.identity = request.identity).getD request

theorem not_read_of_creates (creates : request.creates = true) (asked : CloudRequest) : request ≠ .read asked := by
  rintro rfl
  cases creates

theorem overlayIdentity_only : (overlayIdentity p a).Only fun request : AdapterRequest => request.creates = false := by
  unfold overlayIdentity
  split
  · trivial
  split
  · trivial
  refine ⟨rfl, fun keyPair => ?_⟩
  cases keyPair with
  | error e => trivial
  | ok keyPair =>
    refine ⟨rfl, fun token => ?_⟩
    cases token with
    | error e => trivial
    | ok token =>
      refine ⟨rfl, fun peers => ?_⟩
      cases peers <;> trivial

/-- A create request is only sent by the create path of the adapter's own cloud. -/
theorem createWithResources_reaches (creates : request.creates = true)
    (run : (p.createWithResources a).Reaches trace request) :
    ∃ script later, later ⊆ trace ∧ (createOn p a script).Reaches later request := by
  unfold Command.createWithResources at run
  split at run
  · exact absurd run not_reaches_done
  split at run
  · exact absurd run not_reaches_done
  split at run
  · exact absurd run not_reaches_done
  split at run
  · exact absurd run not_reaches_done
  obtain ⟨_, rfl⟩ | ⟨jit, _, rfl, booted⟩ := reaches_ask run
  · cases creates
  cases jit with
  | error e => exact absurd booted not_reaches_done
  | ok jit =>
    dsimp only at booted
    split at booted
    · exact absurd booted not_reaches_done
    obtain inside | ⟨_, later, overlay, rfl, _, goesOn⟩ := reaches_bind booted
    · rw [overlayIdentity_only.reaches inside] at creates
      cases creates
    cases overlay with
    | error e => exact absurd goesOn not_reaches_done
    | ok overlay =>
      obtain inside | ⟨_, _, _, _, _, ends⟩ := reaches_bind goesOn
      · exact ⟨_, later, fun x member => List.mem_cons_of_mem _ (List.mem_append_right _ member), inside⟩
      · exact absurd ends not_reaches_done

theorem awsDevices_only : ∀ (attempts : Nat) (i : AwsInstance),
    (awsDevices attempts i).Only fun request : AdapterRequest => request.passive = true
  | 0, _ => trivial
  | attempts + 1, i => by
    rw [awsDevices]
    split
    · trivial
    refine ⟨rfl, fun paused => ?_⟩
    cases paused with
    | false => exact awsDevices_only attempts i
    | true =>
      refine only_ask.mpr ⟨rfl, fun reply => ?_⟩
      split
      · exact awsDevices_only attempts _
      · exact awsDevices_only attempts i

theorem createAWS_identity {script : Script} (creates : request.creates = true)
    (run : (createAWS p a script).Reaches trace request) : request.identity = some a.id := by
  have noRead := not_read_of_creates creates
  unfold createAWS at run
  split at run
  · exact absurd run not_reaches_done
  obtain ⟨session, _, _, opened⟩ := reaches_read noRead run
  cases session with
  | some e => exact absurd opened not_reaches_done
  | none =>
    obtain ⟨_, _, inventory, _, _, vacant⟩ := reaches_after noRead opened
    cases inventory with
    | error e => exact absurd vacant not_reaches_done
    | ok inventory =>
      dsimp only at vacant
      split at vacant
      · exact absurd vacant not_reaches_done
      obtain ⟨images, _, _, described⟩ := reaches_read noRead vacant
      split at described
      · exact absurd described not_reaches_done
      obtain ⟨_, rfl⟩ | ⟨reply, _, _, launched⟩ := reaches_ask described
      · rfl
      -- after the launch EC2 is only read
      cases reply with
      | error e =>
        dsimp only at launched
        split at launched <;> exact absurd launched not_reaches_done
      | ok response =>
        dsimp only at launched
        split at launched
        · exact absurd launched not_reaches_done
        obtain inside | ⟨_, _, _, _, _, ends⟩ := reaches_bind launched
        · rw [(neither_of_passive ((awsDevices_only _ _).reaches inside)).1] at creates
          cases creates
        · exact absurd ends not_reaches_done

theorem createGCP_identity {script : Script} (creates : request.creates = true)
    (run : (createGCP p a script).Reaches trace request) : request.identity = some (gcpRequestID p a "create") := by
  have noRead := not_read_of_creates creates
  unfold createGCP at run
  split at run
  · exact absurd run not_reaches_done
  obtain ⟨_, _, inventory, _, _, vacant⟩ := reaches_after noRead run
  split at vacant
  · obtain ⟨_, rfl⟩ | ⟨reply, _, _, inserted⟩ := reaches_ask vacant
    · rfl
    cases reply with
    | error e => exact absurd inserted not_reaches_done
    | ok op =>
      obtain inside | ⟨_, _, e, _, _, waited⟩ := reaches_bind inserted
      · rw [(neither_of_passive ((waitGCPOperation_only _ _ _).reaches inside)).1] at creates
        cases creates
      cases e with
      | some e => exact absurd waited not_reaches_done
      | none =>
        dsimp only at waited
        split at waited
        · exact absurd waited not_reaches_done
        · obtain inside | ⟨_, _, _, _, _, ends⟩ := reaches_bind waited
          · obtain ⟨reply, _, _, goesOn⟩ := reaches_read noRead inside
            cases reply with
            | error e => exact absurd goesOn not_reaches_done
            | ok vm =>
              dsimp only at goesOn
              split at goesOn <;> exact absurd goesOn not_reaches_done
          · exact absurd ends not_reaches_done
  · exact absurd vacant not_reaches_done

theorem gcpResource_zone {b : Allocation} {kind name : String}
    (equal : gcpResource p b kind name = gcpResource p a kind name) : b.offering.zone = a.offering.zone := by
  unfold gcpResource at equal
  have zones := (String.append_left_inj _).mp ((String.append_left_inj _).mp ((String.append_left_inj _).mp
    ((String.append_left_inj _).mp equal)))
  exact (String.append_right_inj _).mp zones

/-- Request identities of Compute Engine tell zones apart. -/
theorem gcpRequestID_zone {b : Allocation} (injective : Function.Injective p.library.newSHA1) (same : b.id = a.id)
    (equal : gcpRequestID p b "create" = gcpRequestID p a "create") : b.offering.zone = a.offering.zone := by
  have texts := injective equal
  rw [same] at texts
  exact gcpResource_zone ((String.append_right_inj _).mp ((String.append_left_inj _).mp
    ((String.append_left_inj _).mp texts)))

/-- A create request that an attempt sends. -/
def Attempted (p : Command) (a : Allocation) (request : AdapterRequest) : Prop :=
  (∃ trace, (p.createWithResources a).Reaches trace request) ∧ request.creates = true

theorem Attempted.aws (sent : Attempted p a request) (aws : p.config.kind = "aws") : request.identity = some a.id := by
  obtain ⟨⟨trace, run⟩, creates⟩ := sent
  obtain ⟨script, later, _, run⟩ := createWithResources_reaches creates run
  rw [createOn, if_pos aws] at run
  exact createAWS_identity creates run

theorem Attempted.gcp (sent : Attempted p a request) (gcp : p.config.kind = "gcp") :
    request.identity = some (gcpRequestID p a "create") := by
  obtain ⟨⟨trace, run⟩, creates⟩ := sent
  obtain ⟨script, later, _, run⟩ := createWithResources_reaches creates run
  rw [createOn, if_neg (by rw [gcp]; decide), if_neg (by rw [gcp]; decide)] at run
  exact createGCP_identity creates run

/-- The request of an attempt has an identity of its own if and only if it goes to another
    zone of Compute Engine than the earlier one; where that holds of all earlier ones, its
    answer is the answer to this request. -/
theorem fresh_identity_across_zones (provider : p.config.kind = "aws" ∨ p.config.kind = "gcp")
    (injective : Function.Injective p.library.newSHA1) {attempts : List (Allocation × AdapterRequest)}
    (earlier : ∀ x ∈ attempts, x.1.id = a.id ∧ Attempted p x.1 x.2) (sent : Attempted p a request) :
    (∀ x ∈ attempts, x.2.identity ≠ request.identity ↔
      p.config.kind = "gcp" ∧ x.1.offering.zone ≠ a.offering.zone) ∧
    ((∀ x ∈ attempts, p.config.kind = "gcp" ∧ x.1.offering.zone ≠ a.offering.zone) →
      answered (attempts.map Prod.snd) request = request) := by
  have differ : ∀ x ∈ attempts, x.2.identity ≠ request.identity ↔
      p.config.kind = "gcp" ∧ x.1.offering.zone ≠ a.offering.zone := by
    intro x member
    obtain ⟨named, before⟩ := earlier x member
    obtain aws | gcp := provider
    · rw [before.aws aws, sent.aws aws, named, aws]
      simp
    · rw [before.gcp gcp, sent.gcp gcp, Ne, Option.some.injEq, and_iff_right gcp, not_iff_not]
      refine ⟨gcpRequestID_zone injective named, fun zones => ?_⟩
      simp only [gcpRequestID, gcpResource, named, zones]
  refine ⟨differ, fun apart => ?_⟩
  have none_found : ((attempts.map Prod.snd).find? fun sent => sent.identity = request.identity) = none := by
    simpa using fun first second member => (differ (first, second) member).mpr (apart _ member)
  rw [answered, none_found]
  rfl

end Identity

/-! ### Attempts on fixed clouds -/

def gcpCommand : Command where
  config := { kind := "gcp", project := "p", subnet := "subnet-1", owner := "runnerscout" }

/-- A project with nothing in it, and an answer to every insert. -/
def emptyProject (insert : Except CloudError GcpOperation) : (request : AdapterRequest) → AdapterReply request
  | .read (.gcpInstance _ _) | .read (.gcpDisk _ _) => .error { text := "not found", api := true, status := 404 }
  | .read (.gcpOperations _ _) => [.ok { kind := "compute#operationList", items := [] }]
  | .gcpInsert _ _ _ => insert
  | request => exhaustedZone noCapacity request

/-- The attempt to create `unlaunched` in another pool. -/
def attempt (zone machine : String) : Allocation :=
  { unlaunched with offering := { unlaunched.offering with zone := zone, machine := machine } }

/-- The operation of an insert into a zone without capacity. -/
def exhausted (a : Allocation) : GcpOperation where
  name := "operation-1"
  clientOperationID := gcpRequestID gcpCommand a "create"
  operationType := "insert"
  targetLink := gcpResource gcpCommand a "instances" a.id
  status := "DONE"
  errors := some [some "ZONE_RESOURCE_POOL_EXHAUSTED"]

/-- The create request an attempt sends. -/
def sentBy (p : Command) (a : Allocation) (answers : (request : AdapterRequest) → AdapterReply request) :
    Option AdapterRequest :=
  (((p.createWithResources a).respond answers).1.map Exchange.request).find? AdapterRequest.creates

theorem attempted_of_sentBy {p : Command} {a : Allocation} {answers : (request : AdapterRequest) → AdapterReply request}
    {request : AdapterRequest} (sends : sentBy p a answers = some request) : Attempted p a request := by
  obtain ⟨x, member, rfl⟩ := List.mem_map.mp (List.mem_of_find?_eq_some sends)
  obtain ⟨first, _, splits⟩ := List.append_of_mem member
  exact ⟨⟨first, (returns_respond answers (p.createWithResources a)).reaches splits⟩, List.find?_some sends⟩

theorem fresh_identity_across_zones_attempts :
    ∃ first second : AdapterRequest,
      sentBy gcpCommand (attempt "z1" "n1") (emptyProject (.error { text := "lost" })) = some first ∧
      sentBy gcpCommand (attempt "z2" "n1") (emptyProject (.error { text := "lost" })) = some second ∧
      first.identity ≠ second.identity ∧ answered [first] second = second := by
  obtain ⟨first, sends⟩ : ∃ first,
      sentBy gcpCommand (attempt "z1" "n1") (emptyProject (.error { text := "lost" })) = some first :=
    Option.isSome_iff_exists.mp (by decide +kernel)
  obtain ⟨second, sends'⟩ : ∃ second,
      sentBy gcpCommand (attempt "z2" "n1") (emptyProject (.error { text := "lost" })) = some second :=
    Option.isSome_iff_exists.mp (by decide +kernel)
  have earlier : ∀ x ∈ [(attempt "z1" "n1", first)],
      x.1.id = (attempt "z2" "n1").id ∧ Attempted gcpCommand x.1 x.2 :=
    List.forall_mem_singleton.mpr ⟨rfl, attempted_of_sentBy sends⟩
  obtain ⟨differ, own⟩ := fresh_identity_across_zones (.inr rfl) Function.injective_id earlier (attempted_of_sentBy sends')
  have apart : gcpCommand.config.kind = "gcp" ∧ (attempt "z1" "n1").offering.zone ≠ (attempt "z2" "n1").offering.zone :=
    ⟨rfl, by decide⟩
  exact ⟨first, second, sends, sends', (differ _ List.mem_cons_self).mpr apart, own (List.forall_mem_singleton.mpr apart)⟩

/-- A second attempt, after a definitive rejection in another pool, whose request is
    taken for the first one. -/
def Collides (p : Command) (a b : Allocation) : Prop :=
  b.id = a.id ∧ b.offering ≠ a.offering ∧ (∃ trace, (p.createWithResources a).Returns trace ({}, some errCapacity)) ∧
    ∃ first second : AdapterRequest, (∃ trace, (p.createWithResources a).Reaches trace first) ∧
      (∃ trace, (p.createWithResources b).Reaches trace second) ∧ second.identity = first.identity ∧
      answered [first] second ≠ second

/-- The machine type a create request asks for. -/
def AdapterRequest.machine : AdapterRequest → String
  | .runInstances input => input.instanceType
  | .gcpInsert _ input _ => input.machineType
  | _ => ""

theorem collides {p : Command} {a b : Allocation} (answers : (request : AdapterRequest) → AdapterReply request)
    (named : b.id = a.id) (pools : b.offering ≠ a.offering)
    (rejected : ((p.createWithResources a).respond answers).2 = ({}, some errCapacity))
    (identity : (sentBy p b answers).map AdapterRequest.identity = (sentBy p a answers).map AdapterRequest.identity)
    (sent : (sentBy p a answers).isSome)
    (machines : (sentBy p b answers).map AdapterRequest.machine ≠ (sentBy p a answers).map AdapterRequest.machine) :
    Collides p a b := by
  obtain ⟨first, sends⟩ := Option.isSome_iff_exists.mp sent
  rw [sends] at identity machines
  obtain ⟨second, sends', same⟩ := Option.map_eq_some_iff.mp identity
  rw [sends'] at machines
  obtain ⟨reached, _⟩ := attempted_of_sentBy sends
  obtain ⟨reached', _⟩ := attempted_of_sentBy sends'
  have returned := returns_respond answers (p.createWithResources a)
  rw [rejected] at returned
  refine ⟨named, pools, ⟨_, returned⟩, first, second, reached, reached', same,
    fun own => machines ?_⟩
  simp only [answered, same, List.find?_cons, decide_true, Option.getD_some] at own
  rw [own]

/-- Neither cloud sees the machine type in the identity of a request: on EC2 it is the
    allocation, on Compute Engine the allocation and its zone. -/
theorem shared_identity_across_pools :
    Collides awsCommand (attempt "us-east-1a" "m7i.large") (attempt "us-east-1b" "m7i.xlarge") ∧
      Collides gcpCommand (attempt "z1" "n1") (attempt "z1" "n2") :=
  ⟨collides (exhaustedZone noCapacity) rfl (by decide) (by decide +kernel) (by decide +kernel)
      (by decide +kernel) (by decide +kernel),
    collides (emptyProject (.ok (exhausted (attempt "z1" "n1")))) rfl (by decide) (by decide +kernel)
      (by decide +kernel) (by decide +kernel) (by decide +kernel)⟩

/-! ## Azure -/

section Fallback

variable {p : Command} {a first : Allocation} {earlier trace : List (Exchange AdapterCalls)} {request : AdapterRequest}

end Fallback

/-! ### A resource group without capacity -/

def imagePath : String := "/subscriptions/s/runner"

def armOffering (id zone : String) (price : Int) : Offering where
  id := id
  provider := "azure"
  region := "eastus"
  zone := zone
  machine := "Standard_D2s_v5"
  image := imagePath
  cpu := 2
  memoryMiB := 4096
  architecture := "amd64"
  spot := true
  priceMicros := price
  currency := "USD"
  observedAt := second

def twoPools : Allocation where
  id := "runner-1"
  revision := 1
  phase := .pending
  deadline := 1000 * second
  maxAttempts := 3
  requirements :=
    { cpu := 2, memoryMiB := 4096, architecture := "amd64", providers := ["azure"], regions := ["eastus"],
      maxPriceMicros := 100000, policy := "lowest-price" }
  catalog :=
    { offerings := [armOffering "pool-1" "1" 10, armOffering "pool-2" "2" 20]
      complete := AList.singleton "azure" true }

end RunnerScout.Provider
