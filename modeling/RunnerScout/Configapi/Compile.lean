import RunnerScout.Configapi.Types

/-! # Compiling a snapshot

`Compile` checks the objects of a snapshot against each other and turns them into the
configuration of an operator.  `binding_of_agree` says once what of a snapshot its
binding, its authentication and its credential references depend on.
-/

namespace RunnerScout

/-- Whether the durable fleet of one configuration can adopt the other. -/
def Operator.sameBinding (a b : Operator.Config) : Bool := a.binding = b.binding

namespace Configapi

open Operator

/-- The text checks that are made by parsers of other packages. -/
structure Checks where
  label : String → Bool
  subdomain : String → Bool
  configMapKey : String → Bool
  gitHubURL : String → Bool
  parsePrefix : String → Except GoError Prefix

section Compile

variable (checks : Checks)

/-- `netip.ParsePrefix`, for the prefixes that are their own masked form. -/
def Checks.canonical (cidr : String) : Option Prefix :=
  match checks.parsePrefix cidr with
  | .error _ => none
  | .ok p => if p = p.masked then some p else none

def Checks.text : TextChecks where
  label := checks.label
  overlayCIDR := fun cidr => (checks.canonical cidr).isSome
  gitHubURL := checks.gitHubURL

def errUnsupported (capability : String) : GoError :=
  .new ("configuration requires an unimplemented runtime capability: " ++ capability)

def object (metadata : ObjectMeta) (space name : String) : Except GoError Unit :=
  if metadata.space ≠ space ∨ metadata.name ≠ name ∨ !checks.label name ∨ !checks.label space then
    .error (.new "invalid or cross-namespace object reference")
  else if metadata.deletionTimestamp ≠ none then .error (.new "configuration dependency is being deleted")
  else .ok ()

def secret (ref : SecretKeyReference) : Except GoError Unit :=
  if !checks.subdomain ref.name ∨ !checks.configMapKey ref.key ∨ ref.key = "" then
    .error (.new "invalid Secret key reference")
  else .ok ()

def credentialVariables : String → List String
  | "aws" => ["AWS_ACCESS_KEY_ID", "AWS_SECRET_ACCESS_KEY", "AWS_SESSION_TOKEN", "AWS_SHARED_CREDENTIALS_FILE",
      "AWS_CONFIG_FILE", "AWS_WEB_IDENTITY_TOKEN_FILE", "AWS_ROLE_ARN"]
  | "azure" => ["AZURE_CLIENT_ID", "AZURE_TENANT_ID", "AZURE_FEDERATED_TOKEN_FILE", "AZURE_CLIENT_SECRET",
      "AZURE_CLIENT_CERTIFICATE_PATH", "AZURE_CLIENT_CERTIFICATE_PASSWORD", "AZURE_CLIENT_SEND_CERTIFICATE_CHAIN"]
  | "gcp" => ["GOOGLE_APPLICATION_CREDENTIALS", "CLOUDSDK_AUTH_CREDENTIAL_FILE_OVERRIDE", "GCP_BILLING_API_KEY"]
  | _ => []

def credentialVariable (kind name : String) : Bool := (credentialVariables kind).contains name

/-- The switch over the authentication mode. -/
def authentication (auth : GitHubAuthentication) : Except GoError Unit :=
  if auth.mode = "pat" then
    if auth.appClientID ≠ "" ∨ auth.appInstallationID ≠ 0 then
      .error (.new "PAT authentication cannot contain App settings")
    else .ok ()
  else if auth.mode = "app" then
    if auth.appClientID = "" ∨ auth.appInstallationID ≤ 0 then
      .error (.new "App authentication requires client and installation identity")
    else .ok ()
  else .error (.new "unsupported GitHub authentication mode")

def retries (retry : RetryPolicy) (auth : GitHubAuthentication) : Except GoError Unit :=
  if retry.enabled ∧ auth.mode ≠ "pat" then .error (errUnsupported "retry execution for App authentication")
  else if !retry.enabled ∧ (retry.maxRetries ≠ 0 ∨ retry.acknowledgeRepeatedEffects) then
    .error (.new "disabled retries cannot contain active retry settings")
  else .ok ()

/-! ## Providers -/

/-- The loop over the credential environment of one provider. -/
def credentialEnvironment (kind : String) : List (String × SecretKeyReference) → Except GoError Unit
  | [] => .ok ()
  | (name, ref) :: rest =>
    if !credentialVariable kind name then .error (.new "provider credential environment variable is not allowed")
    else do
      secret checks ref
      credentialEnvironment kind rest

def ProviderConnection.config (c : ProviderConnection) (owner : String) : Provider.Config where
  kind := c.kind
  accountID := c.accountID
  subscription := c.subscription
  resourceGroup := c.resourceGroup
  sshPublicKey := c.sshPublicKey
  project := c.project
  profile := c.profile
  subnet := c.subnet
  securityGroup := c.securityGroup
  owner := owner

/-- What the loop over the referenced providers has collected. -/
structure Collected where
  providers : GoMap String Provider.Config := ∅
  credentials : GoMap String (GoMap String SecretKeyReference) := ∅
  names : List String := []

def compileProviders (s : Snapshot) : List String → Collected → Except GoError Collected
  | [], c => .ok c
  | ref :: rest, c =>
    match s.providers.lookup ref with
    | none => .error (.new "referenced provider is missing")
    | some p =>
      if ref ∈ c.providers then .error (.new "duplicate provider reference")
      else do
        object checks p.metadata s.scaleSet.metadata.space ref
        credentialEnvironment checks p.spec.connection.kind
          (p.spec.credentialEnvironment.entries.map fun entry => (entry.1, entry.2))
        compileProviders s rest
          { providers := c.providers.insert ref (p.spec.connection.config s.scaleSet.metadata.name)
            credentials := c.credentials.insert ref p.spec.credentialEnvironment
            names := c.names ++ [ref] }

/-! ## The network -/

def networkMode (spec : NetworkProfileSpec) : Except GoError Unit :=
  if spec.mode = "separate" then
    if spec.enrollmentRef ≠ none ∨ spec.allowedServices.length ≠ 0 then
      .error (.new "separate networking cannot enroll peers or imply overlay access rules")
    else .ok ()
  else if spec.mode = "wireguard" then
    if spec.allowedServices.length ≠ 0 then
      .error (.new "wireguard networking does not define overlay access rules for AllowedServices")
    else do
      match spec.enrollmentRef with
      | none => pure ()
      | some ref => secret checks ref
      if spec.mappings.length ≠ 1 then
        .error (.new "wireguard networking supports exactly one network mapping")
      else .ok ()
  else .error (errUnsupported "shared network integration")

/-- The loop over the ranges of one mapping. -/
def mappingPrefixes : List String → List Prefix → Except GoError (List Prefix)
  | [], prefixes => .ok prefixes
  | cidr :: rest, prefixes =>
    match checks.canonical cidr with
    | none => .error (.new "network CIDR must be a canonical prefix")
    | some p =>
      if prefixes.any p.overlaps then .error (.new "overlapping network CIDRs")
      else mappingPrefixes rest (prefixes ++ [p])

def mappingKey (provider region : String) : String := provider ++ "/" ++ region

/-- The loop over the mappings; `seen` are the keys it has passed. -/
def networkMappings (regions : List String) (providers : GoMap String Provider.Config) :
    List NetworkMapping → List String → List Prefix → Except GoError (List String)
  | [], seen, _ => .ok seen
  | m :: rest, seen, prefixes =>
    let key := mappingKey m.providerRef m.region
    let subnet := (providers.lookup m.providerRef).map Provider.Config.subnet
    if subnet = none ∨ key ∈ seen ∨ m.networkID = "" ∨ subnet ≠ some m.subnetID ∨ m.region ∉ regions
        ∨ m.cidrs.length = 0 then
      .error (.new "invalid or duplicate provider network mapping")
    else do
      let prefixes ← mappingPrefixes checks m.cidrs prefixes
      networkMappings regions providers rest (seen ++ [key]) prefixes

/-- The part of `network` that looks at no offering. -/
def networkProfile (n : NetworkProfile) (s : Snapshot) (ref : String) (providers : GoMap String Provider.Config) :
    Except GoError (List String) := do
  object checks n.metadata s.scaleSet.metadata.space ref
  networkMode checks n.spec
  let seen ← networkMappings checks s.runnerClass.spec.placement.regions providers n.spec.mappings [] []
  if !providers.keys.all fun name => n.spec.mappings.any fun m => m.providerRef = name then
    .error (.new "network profile does not cover every allowed provider")
  else .ok seen

/-- The profile the allocations join and its overlay ranges. -/
def networkIdentity (n : NetworkProfile) : String × List String :=
  if n.spec.mode = "wireguard" then (n.metadata.name, (n.spec.mappings.head?.map NetworkMapping.cidrs).getD [])
  else ("", [])

def network (s : Snapshot) (providers : GoMap String Provider.Config) : Except GoError (String × List String) :=
  match s.runnerClass.spec.networkRef, s.network with
  | none, some _ => .error (.new "unreferenced network configuration")
  | none, none => .ok ("", [])
  | some _, none => .error (.new "referenced network configuration is missing")
  | some ref, some n => do
    let seen ← networkProfile checks n s ref providers
    if s.catalog.spec.offerings.any fun o =>
        o.provider ∈ providers && o.region ∈ s.runnerClass.spec.placement.regions &&
          mappingKey o.provider o.region ∉ seen then
      .error (.new "catalog offering lacks a network mapping")
    else .ok (networkIdentity n)

/-! ## The configuration -/

def budget (s : Snapshot) : Except GoError Int :=
  match s.scaleSet.spec.budgetRef, s.budget with
  | some _, none => .error (.new "referenced budget configuration is missing")
  | some ref, some b => do
    object checks b.metadata s.scaleSet.metadata.space ref
    return b.spec.dailyBudgetMicros
  | none, some _ => .error (.new "unreferenced budget configuration")
  | none, none => .ok 0

def CapacityCatalogSpec.refreshes (spec : CapacityCatalogSpec) (provider : String) : Bool :=
  (spec.priceRefresh.lookup provider).getD false

/-- The configuration a snapshot stands for. -/
def Snapshot.config (s : Snapshot) (c : Collected) (net : String × List String) (dailyMicros : Int) :
    Operator.Config where
  name := s.scaleSet.metadata.name
  space := s.scaleSet.metadata.space
  gitHubURL := s.scaleSet.spec.gitHub.url
  scaleSetID := s.scaleSet.spec.gitHub.scaleSetID
  maxRunners := s.scaleSet.spec.maxRunners
  provisioningSeconds := s.scaleSet.spec.provisioningSeconds
  maxLifetimeSeconds := s.scaleSet.spec.maxLifetimeSeconds
  providers := c.providers
  networkProfile := net.1
  networkOverlayCIDRs := net.2
  awsPriceRefresh := s.catalog.spec.refreshes "aws"
  azurePriceRefresh := s.catalog.spec.refreshes "azure"
  gcpPriceRefresh := s.catalog.spec.refreshes "gcp"
  requirements :=
    { cpu := s.runnerClass.spec.resources.cpu
      memoryMiB := s.runnerClass.spec.resources.memoryMiB
      architecture := s.runnerClass.spec.resources.architecture
      vendor := s.runnerClass.spec.resources.vendor
      capabilities := s.runnerClass.spec.resources.capabilities
      providers := c.names.insertionSort (· ≤ ·)
      regions := s.runnerClass.spec.placement.regions
      maxPriceMicros := s.runnerClass.spec.placement.maxPriceMicros
      allowOnDemand := s.runnerClass.spec.placement.allowOnDemand
      policy := s.runnerClass.spec.placement.policy }
  retry :=
    { enabled := s.runnerClass.spec.retry.enabled
      maxRetries := s.runnerClass.spec.retry.maxRetries
      acknowledgeRepeatedEffects := s.runnerClass.spec.retry.acknowledgeRepeatedEffects }
  catalog := { offerings := s.catalog.spec.offerings, complete := s.catalog.spec.complete }
  budgetDailyMicros := dailyMicros

def compile (s : Snapshot) : Except GoError Resolved := do
  object checks s.scaleSet.metadata s.scaleSet.metadata.space s.scaleSet.metadata.name
  object checks s.runnerClass.metadata s.scaleSet.metadata.space s.scaleSet.spec.runnerClassRef
  object checks s.catalog.metadata s.scaleSet.metadata.space s.runnerClass.spec.catalogRef
  let auth := s.scaleSet.spec.gitHub.auth
  secret checks auth.secretRef
  authentication auth
  retries s.runnerClass.spec.retry auth
  let collected ← compileProviders checks s s.runnerClass.spec.providers {}
  let net ← network checks s collected.providers
  let dailyMicros ← budget checks s
  let config := s.config collected net dailyMicros
  match config.validate checks.text with
  | some e => .error e
  | none => .ok { config, auth, credentials := collected.credentials, suspend := s.scaleSet.spec.suspend }

end Compile

section Results

variable {checks : Checks} {s : Snapshot}

/-- The profile that is joined is the one of the snapshot, whatever was checked. -/
theorem network_ok {providers : GoMap String Provider.Config} {net : String × List String}
    (ok : network checks s providers = .ok net) : net = (s.network.map networkIdentity).getD ("", []) := by
  unfold network at ok
  split at ok
  · cases ok
  · rename_i absent
    cases ok
    rw [absent]
    rfl
  · cases ok
  · rename_i n present
    rw [present]
    obtain ⟨_, _, ok⟩ := bind_eq_ok.mp ok
    split at ok
    · cases ok
    · cases ok
      rfl

theorem compile_ok {r : Resolved} (ok : compile checks s = .ok r) :
    ∃ collected net dailyMicros, compileProviders checks s s.runnerClass.spec.providers {} = .ok collected ∧
      network checks s collected.providers = .ok net ∧
      r = { config := s.config collected net dailyMicros, auth := s.scaleSet.spec.gitHub.auth
            credentials := collected.credentials, suspend := s.scaleSet.spec.suspend } := by
  unfold compile at ok
  obtain ⟨_, _, ok⟩ := bind_eq_ok.mp ok
  obtain ⟨_, _, ok⟩ := bind_eq_ok.mp ok
  obtain ⟨_, _, ok⟩ := bind_eq_ok.mp ok
  obtain ⟨_, _, ok⟩ := bind_eq_ok.mp ok
  obtain ⟨_, _, ok⟩ := bind_eq_ok.mp ok
  obtain ⟨_, _, ok⟩ := bind_eq_ok.mp ok
  obtain ⟨collected, providers, ok⟩ := bind_eq_ok.mp ok
  obtain ⟨net, network, ok⟩ := bind_eq_ok.mp ok
  obtain ⟨dailyMicros, _, ok⟩ := bind_eq_ok.mp ok
  dsimp only at ok
  split at ok
  · cases ok
  · cases ok
    exact ⟨collected, net, dailyMicros, providers, network, rfl⟩

end Results

/-! ## What a binding is made of -/

/-- Snapshots that agree in everything an operator may not change under a fleet. -/
structure Agree (s t : Snapshot) : Prop where
  name : t.scaleSet.metadata.name = s.scaleSet.metadata.name
  space : t.scaleSet.metadata.space = s.scaleSet.metadata.space
  gitHub : t.scaleSet.spec.gitHub = s.scaleSet.spec.gitHub
  provisioningSeconds : t.scaleSet.spec.provisioningSeconds = s.scaleSet.spec.provisioningSeconds
  maxLifetimeSeconds : t.scaleSet.spec.maxLifetimeSeconds = s.scaleSet.spec.maxLifetimeSeconds
  runnerClass : t.runnerClass.spec = s.runnerClass.spec
  providers : ∀ name, (t.providers.lookup name).map Configuration.spec = (s.providers.lookup name).map Configuration.spec
  network : (t.network.map fun n => (n.metadata.name, n.spec)) = s.network.map fun n => (n.metadata.name, n.spec)

/-- Snapshots whose catalogs refresh the prices of the same providers. -/
def RefreshAlike (s t : Snapshot) : Prop :=
  ∀ provider ∈ ["aws", "azure", "gcp"], t.catalog.spec.refreshes provider = s.catalog.spec.refreshes provider

section Agree

variable {checks : Checks} {s t : Snapshot} (agree : Agree s t)

include agree

theorem Agree.compileProviders {refs : List String} {c a b : Collected}
    (first : Configapi.compileProviders checks s refs c = .ok a)
    (second : Configapi.compileProviders checks t refs c = .ok b) : b = a := by
  induction refs generalizing c with
  | nil =>
    cases first
    cases second
    rfl
  | cons ref rest ih =>
    have specs := agree.providers ref
    unfold Configapi.compileProviders at first second
    cases here : s.providers.lookup ref with
    | none =>
      rw [here] at first
      cases first
    | some p =>
      cases there : t.providers.lookup ref with
      | none =>
        rw [there] at second
        cases second
      | some q =>
        rw [here, there] at specs
        have spec : q.spec = p.spec := by simpa using specs
        rw [here] at first
        rw [there] at second
        dsimp only at first second
        split at first
        · cases first
        · rename_i fresh
          rw [if_neg fresh, spec, agree.name] at second
          obtain ⟨_, _, first⟩ := bind_eq_ok.mp first
          obtain ⟨_, _, first⟩ := bind_eq_ok.mp first
          obtain ⟨_, _, second⟩ := bind_eq_ok.mp second
          obtain ⟨_, _, second⟩ := bind_eq_ok.mp second
          exact ih first second

theorem Agree.networkIdentity : (t.network.map Configapi.networkIdentity) = s.network.map Configapi.networkIdentity := by
  have same := agree.network
  cases here : s.network with
  | none =>
    rw [here] at same
    rw [Option.map_eq_none_iff.mp same]
  | some n =>
    rw [here] at same
    obtain ⟨m, there, parts⟩ := Option.map_eq_some_iff.mp same
    obtain ⟨name, spec⟩ := Prod.mk.inj parts
    rw [there, Option.map_some, Option.map_some]
    unfold Configapi.networkIdentity
    rw [name, spec]

/-- Both compile to the same binding, authentication and credential references. -/
theorem Agree.resolved (alike : RefreshAlike s t) {r q : Resolved} (first : compile checks s = .ok r)
    (second : compile checks t = .ok q) :
    q.config.binding = r.config.binding ∧ q.auth = r.auth ∧ q.credentials = r.credentials := by
  obtain ⟨c, net, _, providers, network, rfl⟩ := compile_ok first
  obtain ⟨d, other, _, others, networks, rfl⟩ := compile_ok second
  rw [agree.runnerClass] at others
  obtain rfl := agree.compileProviders providers others
  have net : other = net := by rw [network_ok networks, network_ok network, agree.networkIdentity]
  subst net
  have aws := alike "aws" (by decide)
  have azure := alike "azure" (by decide)
  have gcp := alike "gcp" (by decide)
  refine ⟨?_, congrArg GitHubScaleSet.auth agree.gitHub, rfl⟩
  simp only [Config.binding, Config.bindingWithLimit, Snapshot.config, agree.name, agree.space, agree.gitHub,
    agree.provisioningSeconds, agree.maxLifetimeSeconds, agree.runnerClass, aws, azure, gcp]

end Agree

/-! ## Refreshing a catalog -/

/-- `t` is `s` with another catalog, limit, suspension or budget. -/
structure Refreshed (s t : Snapshot) : Prop where
  scaleSet : ∃ maxRunners suspend budgetRef,
    t.scaleSet = { s.scaleSet with spec :=
      { s.scaleSet.spec with maxRunners := maxRunners, suspend := suspend, budgetRef := budgetRef } }
  runnerClass : t.runnerClass = s.runnerClass
  providers : t.providers = s.providers
  network : t.network = s.network

theorem Refreshed.agree {s t : Snapshot} (refreshed : Refreshed s t) : Agree s t := by
  obtain ⟨⟨maxRunners, suspend, budgetRef, scaleSet⟩, runnerClass, providers, network⟩ := refreshed
  exact
    { name := by rw [scaleSet]
      space := by rw [scaleSet]
      gitHub := by rw [scaleSet]
      provisioningSeconds := by rw [scaleSet]
      maxLifetimeSeconds := by rw [scaleSet]
      runnerClass := by rw [runnerClass]
      providers := fun name => by rw [providers]
      network := by rw [network] }

/-- A refreshed snapshot keeps its binding if and only if its catalog refreshes the same
    prices. -/
theorem refreshed_sameBinding {checks : Checks} {s t : Snapshot} {r q : Resolved} (refreshed : Refreshed s t)
    (first : compile checks s = .ok r) (second : compile checks t = .ok q) :
    sameBinding r.config q.config = true ↔ RefreshAlike s t := by
  refine ⟨fun same => ?_, fun alike => decide_eq_true (refreshed.agree.resolved alike first second).1.symm⟩
  obtain ⟨c, net, _, _, _, rfl⟩ := compile_ok first
  obtain ⟨d, other, _, _, _, rfl⟩ := compile_ok second
  -- the flags of the three catalogs are hashed with the configuration
  have same := (decide_eq_true_eq.mp same).symm
  intro provider member
  simp only [List.mem_cons, List.not_mem_nil, or_false] at member
  obtain rfl | rfl | rfl := member
  · exact congrArg Binding.awsPriceRefresh same
  · exact congrArg Binding.azurePriceRefresh same
  · exact congrArg Binding.gcpPriceRefresh same

/-- Every text passes, and there are no network ranges. -/
def plainChecks : Checks where
  label := fun _ => true
  subdomain := fun _ => true
  configMapKey := fun _ => true
  gitHubURL := fun _ => true
  parsePrefix := fun _ => .error (.new "netip.ParsePrefix: no '/'")

def smallSnapshot : Snapshot where
  scaleSet :=
    { metadata := { name := "linux", space := "ci", uid := "1b4e28ba" }
      spec :=
        { runnerClassRef := "standard"
          gitHub :=
            { url := "https://github.com/team/project"
              scaleSetID := 1
              auth := { mode := "pat", secretRef := { name := "github", key := "token" } } }
          maxRunners := 2
          provisioningSeconds := 300
          maxLifetimeSeconds := 3600 } }
  runnerClass :=
    { metadata := { name := "standard", space := "ci" }
      spec :=
        { resources := { cpu := 2, memoryMiB := 4096, architecture := "amd64" }
          placement := { policy := "lowest-price", regions := ["us-east-1"], maxPriceMicros := 100000, allowOnDemand := false }
          providers := ["aws"]
          catalogRef := "prices" } }
  catalog := { metadata := { name := "prices", space := "ci" }, spec := {} }
  providers := (∅ : GoMap String ProviderConfig).insert "aws"
    { metadata := { name := "aws", space := "ci" }
      spec := { connection :=
        { kind := "aws", accountID := "123456789012", subnet := "subnet-1", securityGroup := "sg-1" } } }

/-- The same scale set, its catalog asking for live prices of AWS. -/
def refreshingSnapshot : Snapshot :=
  { smallSnapshot with catalog :=
      { smallSnapshot.catalog with spec := { priceRefresh := (∅ : GoMap String Bool).insert "aws" true } } }

/-- The same scale set, suspended and with another limit. -/
def suspendedSnapshot : Snapshot :=
  { smallSnapshot with scaleSet :=
      { smallSnapshot.scaleSet with spec := { smallSnapshot.scaleSet.spec with maxRunners := 5, suspend := true } } }

theorem compiles {checks : Checks} {s : Snapshot} (passes : (compile checks s).isOk = true) :
    ∃ r, compile checks s = .ok r := by
  cases compiled : compile checks s with
  | error e =>
    rw [compiled] at passes
    cases passes
  | ok r => exact ⟨r, rfl⟩

/-- A catalog that starts to refresh prices changes the binding of its scale set. -/
theorem refreshingSnapshot_rebinds :
    Refreshed smallSnapshot refreshingSnapshot ∧
      ∃ r q, compile plainChecks smallSnapshot = .ok r ∧ compile plainChecks refreshingSnapshot = .ok q ∧
        sameBinding r.config q.config = false := by
  refine ⟨⟨⟨2, false, none, rfl⟩, rfl, rfl, rfl⟩, ?_⟩
  obtain ⟨r, first⟩ : ∃ r, compile plainChecks smallSnapshot = .ok r := compiles (by decide +kernel)
  obtain ⟨q, second⟩ : ∃ q, compile plainChecks refreshingSnapshot = .ok q := compiles (by decide +kernel)
  refine ⟨r, q, first, second, decide_eq_false fun same => ?_⟩
  obtain ⟨c, net, _, _, _, rfl⟩ := compile_ok first
  obtain ⟨d, other, _, _, _, rfl⟩ := compile_ok second
  exact Bool.false_ne_true (congrArg Binding.awsPriceRefresh same)

/-- Suspending a scale set and raising its limit does not. -/
theorem refreshed_sameBinding_suspended :
    Refreshed smallSnapshot suspendedSnapshot ∧
      ∃ r q, compile plainChecks smallSnapshot = .ok r ∧ compile plainChecks suspendedSnapshot = .ok q ∧
        sameBinding r.config q.config = true := by
  have refreshed : Refreshed smallSnapshot suspendedSnapshot := ⟨⟨5, true, none, rfl⟩, rfl, rfl, rfl⟩
  obtain ⟨r, first⟩ : ∃ r, compile plainChecks smallSnapshot = .ok r := compiles (by decide +kernel)
  obtain ⟨q, second⟩ : ∃ q, compile plainChecks suspendedSnapshot = .ok q := compiles (by decide +kernel)
  exact ⟨refreshed, r, q, first, second, (refreshed_sameBinding refreshed first second).mpr fun _ _ => rfl⟩

end Configapi

end RunnerScout
