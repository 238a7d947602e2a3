import RunnerScout.Json
import RunnerScout.Operator.Fleet

/-! # The binding digest

`bindingWithLimit` hashes the JSON document of a configuration whose catalog and
budget are blanked and whose limit is replaced.  The model of a fleet keeps what is
hashed instead of the hash; here the documents are written out, and the two are shown
to tell the same configurations apart.
-/

namespace RunnerScout

open Json

/-! ## Documents -/

def Placement.Requirements.members (r : Placement.Requirements) : List (String × Option Json) :=
  [("cpu", some (.int r.cpu)),
    ("memoryMiB", some (.int r.memoryMiB)),
    ("architecture", some (.str r.architecture)),
    ("vendor", omitEmpty "" .str r.vendor),
    ("capabilities", omitEmpty [] strings r.capabilities),
    ("providers", some (strings r.providers)),
    ("regions", some (strings r.regions)),
    ("maxPriceMicros", some (.int r.maxPriceMicros)),
    ("allowOnDemand", some (.bool r.allowOnDemand)),
    ("policy", some (.str r.policy))]

/-- The fields of `recovery.Policy` are encoded under their own names. -/
def Recovery.Policy.members (p : Recovery.Policy) : List (String × Option Json) :=
  [("Enabled", some (.bool p.enabled)),
    ("MaxRetries", some (.int p.maxRetries)),
    ("AcknowledgeRepeatedEffects", some (.bool p.acknowledgeRepeatedEffects))]

def Provider.Config.members (p : Provider.Config) : List (String × Option Json) :=
  [("accountID", omitEmpty "" .str p.accountID),
    ("subscription", omitEmpty "" .str p.subscription),
    ("resourceGroup", omitEmpty "" .str p.resourceGroup),
    ("sshPublicKey", omitEmpty "" .str p.sshPublicKey),
    ("kind", some (.str p.kind)),
    ("project", omitEmpty "" .str p.project),
    ("profile", omitEmpty "" .str p.profile),
    ("subnet", some (.str p.subnet)),
    ("securityGroup", omitEmpty "" .str p.securityGroup),
    ("owner", some (.str p.owner)),
    ("wireGuardControllerURL", omitEmpty "" .str p.wireGuardControllerURL),
    ("azureDiskControllerType", omitEmpty "" .str p.azureDiskControllerType)]

theorem Placement.Requirements.record_members_inj {r q : Placement.Requirements} :
    record r.members = record q.members ↔ r = q := by
  rw [record_inj (by rfl) (by simp [members])]
  cases r
  cases q
  simp [members]

theorem Recovery.Policy.record_members_inj {p q : Recovery.Policy} :
    record p.members = record q.members ↔ p = q := by
  rw [record_inj (by rfl) (by simp [members])]
  cases p
  cases q
  simp [members]

theorem Provider.Config.record_members_inj {p q : Provider.Config} :
    record p.members = record q.members ↔ p = q := by
  rw [record_inj (by rfl) (by simp [members])]
  cases p
  cases q
  simp [members]

namespace Operator

open Placement

/-- The entries of a map, in the order they are encoded. -/
def Config.sortedProviders (c : Config) : List (String × Provider.Config) :=
  (c.providers.entries.map fun entry => (entry.1, entry.2)).insertionSort fun a b => a.1 ≤ b.1

def providersDocument (providers : List (String × Provider.Config)) : Json :=
  .object (providers.map fun entry => (entry.1, record entry.2.members))

theorem providersDocument_inj {providers others : List (String × Provider.Config)} :
    providersDocument providers = providersDocument others ↔ providers = others := by
  refine ⟨fun same => ?_, congrArg _⟩
  refine List.map_injective_iff.mpr ?_ (Json.object.inj same)
  rintro ⟨name, p⟩ ⟨other, q⟩ entry
  simpa [Provider.Config.record_members_inj] using entry

section Documents

variable (catalogDocument : Catalog → Json)

def Config.members (c : Config) : List (String × Option Json) :=
  [("catalogPath", omitEmpty "" .str c.catalogPath),
    ("name", some (.str c.name)),
    ("namespace", some (.str c.space)),
    ("githubURL", some (.str c.gitHubURL)),
    ("scaleSetID", some (.int c.scaleSetID)),
    ("maxRunners", some (.int c.maxRunners)),
    ("provisioningSeconds", some (.int c.provisioningSeconds)),
    ("maxLifetimeSeconds", some (.int c.maxLifetimeSeconds)),
    ("requirements", some (record c.requirements.members)),
    ("catalog", some (catalogDocument c.catalog)),
    ("providers", some (providersDocument c.sortedProviders)),
    ("retry", some (record c.retry.members)),
    ("awsPriceRefresh", omitEmpty false .bool c.awsPriceRefresh),
    ("azurePriceRefresh", omitEmpty false .bool c.azurePriceRefresh),
    ("gcpPriceRefresh", omitEmpty false .bool c.gcpPriceRefresh),
    ("azureInterruptionQueueURL", omitEmpty "" .str c.azureInterruptionQueueURL),
    ("networkProfile", omitEmpty "" .str c.networkProfile),
    ("networkOverlayCIDRs", omitEmpty [] strings c.networkOverlayCIDRs),
    ("budgetDailyMicros", omitEmpty 0 .int c.budgetDailyMicros)]

/-- The document of a configuration. -/
def Config.document (c : Config) : Json := record (c.members catalogDocument)

/-- What may change under an existing fleet. -/
def exempt : List String := ["maxRunners", "catalog", "catalogPath", "budgetDailyMicros"]

theorem Config.keys_nodup (c : Config) : ((c.members catalogDocument).map Prod.fst).Nodup := by
  simp [members]

/-- Two documents agree on every member that may not change exactly when the bindings
    are equal. -/
theorem agreeExcept_iff_binding {c d : Config} :
    AgreeExcept exempt (c.document catalogDocument) (d.document catalogDocument) ↔ c.binding = d.binding := by
  unfold Config.document
  rw [agreeExcept_record (by rfl) (c.keys_nodup catalogDocument)]
  simp [Config.members, exempt, Config.binding, Config.bindingWithLimit, Config.sortedProviders,
    providersDocument_inj, Requirements.record_members_inj, Recovery.Policy.record_members_inj]

/-! ## Digests -/

/-- The configuration as it is hashed. -/
def Config.hashed (c : Config) (limit : Int) : Config :=
  { c with maxRunners := limit, catalog := {}, catalogPath := "", budgetDailyMicros := 0 }

/-- SHA-256 as it is used here, with the texts of its digests left open: no two
    documents share a digest, and none has the text of a missing one. -/
structure Hash (δ : Type) where
  digest : Json → δ
  empty : δ
  injective : Function.Injective digest
  digest_ne_empty : ∀ document, digest document ≠ empty

variable {δ : Type} [DecidableEq δ] (hash : Hash δ)

/-- `bindingWithLimit`, as the text it returns. -/
def Config.digestWithLimit (c : Config) (limit : Int) : δ := hash.digest ((c.hashed limit).document catalogDocument)

/-- The two checks of `readFleet`, on the version and the text that are stored. -/
def Config.checkBinding (c : Config) (version : Int) (stored : δ) : Option GoError :=
  let legacyMatch := version = 0 ∧
    (List.range 10).any fun limit => stored = c.digestWithLimit catalogDocument hash (limit + 1)
  if stored ≠ hash.empty ∧ stored ≠ c.digestWithLimit catalogDocument hash 0 ∧ ¬ legacyMatch then
    some (.new "provider or class binding changed; restore original configuration for cleanup")
  else if version ≠ 0 ∧ version ≠ 2 then some (.new "unsupported fleet binding version")
  else none

/-- The text that a modelled binding stands for. -/
inductive Digested : Option Binding → δ → Prop where
  | unbound : Digested none hash.empty
  | bound (c : Config) (limit : Int) :
      Digested (some (c.bindingWithLimit limit)) (c.digestWithLimit catalogDocument hash limit)

variable {catalogDocument hash}

omit [DecidableEq δ] in
theorem digestWithLimit_inj {c d : Config} {limit other : Int} :
    c.digestWithLimit catalogDocument hash limit = d.digestWithLimit catalogDocument hash other ↔
      c.bindingWithLimit limit = d.bindingWithLimit other := by
  unfold Config.digestWithLimit Config.document
  rw [hash.injective.eq_iff, record_inj (by rfl) (Config.keys_nodup ..)]
  simp [Config.members, Config.hashed, Config.bindingWithLimit, Config.sortedProviders,
    providersDocument_inj, Requirements.record_members_inj, Recovery.Policy.record_members_inj]

section Digested

variable {binding : Option Binding} {stored : δ} (digested : Digested catalogDocument hash binding stored)

omit [DecidableEq δ]

include digested

theorem Digested.eq_empty : stored = hash.empty ↔ binding = none := by
  cases digested with
  | unbound => exact iff_of_true rfl rfl
  | bound c limit => exact iff_of_false (hash.digest_ne_empty _) (Option.some_ne_none _)

/-- Comparing texts is comparing what was hashed. -/
theorem Digested.eq_digest {c : Config} {limit : Int} :
    stored = c.digestWithLimit catalogDocument hash limit ↔ binding = some (c.bindingWithLimit limit) := by
  cases digested with
  | unbound => exact iff_of_false (hash.digest_ne_empty _).symm (Option.some_ne_none _).symm
  | bound d other => rw [digestWithLimit_inj, Option.some.injEq]

end Digested

/-- The model of `readFleet` decides, on what was hashed, as the source does on the
    texts. -/
theorem bind_eq_checkBinding {f : Fleet} {stored : δ} (digested : Digested catalogDocument hash f.binding stored)
    (c : Config) :
    f.bind c =
      match c.checkBinding catalogDocument hash f.bindingVersion stored with
      | some e => .error e
      | none => .ok { f with bindingVersion := 2, binding := some c.binding } := by
  have empty := digested.eq_empty
  have same (limit : Int) : stored = c.digestWithLimit catalogDocument hash limit ↔
      f.binding = some (c.bindingWithLimit limit) := digested.eq_digest
  have legacy : ((List.range 10).any fun limit => stored = c.digestWithLimit catalogDocument hash (limit + 1)) =
      (List.range 10).any fun limit => f.binding = some (c.bindingWithLimit (limit + 1)) := by
    simp only [same]
  unfold Fleet.bind Config.checkBinding
  dsimp only
  rw [legacy]
  split
  · rename_i changed
    rw [if_pos ⟨mt empty.mp changed.1, mt (same 0).mp changed.2.1, changed.2.2⟩]
  · rename_i unchanged
    have kept : ¬ (stored ≠ hash.empty ∧ stored ≠ c.digestWithLimit catalogDocument hash 0 ∧
        ¬ (f.bindingVersion = 0 ∧
          ((List.range 10).any fun limit => f.binding = some (c.bindingWithLimit (limit + 1))) = true)) :=
      fun changed => unchanged ⟨mt empty.mpr changed.1, mt (same 0).mpr changed.2.1, changed.2.2⟩
    rw [if_neg kept]
    split <;> rfl

/-- The limit is the only thing that tells apart the digests of one configuration. -/
theorem bindingWithLimit_inj {c d : Config} {limit other : Int} :
    c.bindingWithLimit limit = d.bindingWithLimit other ↔ limit = other ∧ c.binding = d.binding := by
  simp only [Config.binding, Config.bindingWithLimit, Binding.mk.injEq]
  tauto

/-- When the checks of `readFleet` pass. -/
theorem checkBinding_eq_none {c : Config} {version : Int} {stored : δ} :
    c.checkBinding catalogDocument hash version stored = none ↔
      (version = 0 ∨ version = 2) ∧ (stored = hash.empty ∨ stored = c.digestWithLimit catalogDocument hash 0 ∨
        version = 0 ∧ ∃ limit : Int, 1 ≤ limit ∧ limit ≤ 10 ∧ stored = c.digestWithLimit catalogDocument hash limit) := by
  have legacy : ((List.range 10).any fun limit => stored = c.digestWithLimit catalogDocument hash (limit + 1)) = true ↔
      ∃ limit : Int, 1 ≤ limit ∧ limit ≤ 10 ∧ stored = c.digestWithLimit catalogDocument hash limit := by
    simp only [List.any_eq_true, List.mem_range, decide_eq_true_eq]
    constructor
    · rintro ⟨n, bound, same⟩
      exact ⟨n + 1, by omega, by omega, same⟩
    · rintro ⟨limit, low, high, same⟩
      refine ⟨(limit - 1).toNat, by omega, ?_⟩
      have : ((limit - 1).toNat : Int) + 1 = limit := by omega
      rw [this, same]
  unfold Config.checkBinding
  dsimp only
  rw [← legacy]
  split
  · rename_i changed
    refine iff_of_false (Option.some_ne_none _) ?_
    rintro ⟨_, missing | same | older⟩
    exacts [changed.1 missing, changed.2.1 same, changed.2.2 older]
  · rename_i unchanged
    split <;> rename_i unsupported
    · exact iff_of_false (Option.some_ne_none _) fun passed => passed.1.elim unsupported.1 unsupported.2
    · exact iff_of_true rfl ⟨by tauto, by tauto⟩

end Documents

end Operator

end RunnerScout
