import RunnerScout.Interaction.Trace
import RunnerScout.Operator.Admission
import RunnerScout.Placement.Choice

/-! # Live prices

The three price passes before an admission, with a mark on every offering whose
observation failed.  A failure is expressed by a zero timestamp only, and `Choose`
refuses a catalog with a stale offering in its scope, so a mark is harmless exactly
where `Choose` does not look.
-/

namespace RunnerScout.Operator

open Interaction Program Placement

/-- An offering, and whether its observation failed. -/
abbrev Marked := Offering × Bool

/-- The offerings a failed observation leaves in the catalog. -/
def remaining (marked : List Marked) : List Offering := (marked.filter fun m => !m.2).map Prod.fst

/-! ## One pass -/

/-- One pass over marked offerings, by what it was told. -/
inductive Pass (query : Offering → Option PriceQuery) :
    List Marked → List (Exchange Api) → List Marked → Prop where
  | nil : Pass query [] [] []
  | left {offering failed rest trace after} (unasked : query offering = none) (later : Pass query rest trace after) :
      Pass query ((offering, failed) :: rest) trace ((offering, failed) :: after)
  | failed {offering failed rest trace after asked} (asks : query offering = some asked) (e : GoError)
      (later : Pass query rest trace after) :
      Pass query ((offering, failed) :: rest) (⟨.observePrice asked, .error e⟩ :: trace)
        (({ offering with observedAt := 0 }, true) :: after)
  | quoted {offering failed rest trace after asked} (asks : query offering = some asked) (quote : Quote)
      (later : Pass query rest trace after) :
      Pass query ((offering, failed) :: rest) (⟨.observePrice asked, .ok quote⟩ :: trace)
        (({ offering with
            priceMicros := quote.priceMicros
            currency := quote.currency
            observedAt := quote.observedAt }, failed) :: after)

section Pass

variable {query : Offering → Option PriceQuery} {trace : List (Exchange Api)}

theorem refreshOfferings_cons {offering : Offering} {rest : List Offering} {asked : PriceQuery}
    (asks : query offering = some asked) {result : List Offering} :
    (refreshOfferings query (offering :: rest)).Returns trace result ↔
      ∃ (reply : Except GoError Quote) (later : List (Exchange Api)) (refreshed : List Offering),
        trace = ⟨.observePrice asked, reply⟩ :: later ∧ (refreshOfferings query rest).Returns later refreshed ∧
        result = (match reply with
          | .error _ => { offering with observedAt := 0 }
          | .ok quote =>
            { offering with
              priceMicros := quote.priceMicros
              currency := quote.currency
              observedAt := quote.observedAt }) :: refreshed := by
  rw [refreshOfferings, asks]
  dsimp only
  rw [returns_ask]
  constructor
  · rintro ⟨reply, later, rfl, run⟩
    cases reply with
    | error e =>
      obtain ⟨first, second, refreshed, rfl, ran, ended⟩ := returns_bind.mp run
      obtain ⟨rfl, rfl⟩ := returns_pure.mp ended
      exact ⟨.error e, _, refreshed, rfl, by simpa using ran, rfl⟩
    | ok quote =>
      obtain ⟨first, second, refreshed, rfl, ran, ended⟩ := returns_bind.mp run
      obtain ⟨rfl, rfl⟩ := returns_pure.mp ended
      exact ⟨.ok quote, _, refreshed, rfl, by simpa using ran, rfl⟩
  · rintro ⟨reply, later, refreshed, rfl, ran, rfl⟩
    refine ⟨reply, later, rfl, ?_⟩
    cases reply with
    | error e => exact returns_bind.mpr ⟨later, [], refreshed, by simp, ran, returns_pure.mpr ⟨rfl, rfl⟩⟩
    | ok quote => exact returns_bind.mpr ⟨later, [], refreshed, by simp, ran, returns_pure.mpr ⟨rfl, rfl⟩⟩

/-- The runs of one pass. -/
theorem refreshOfferings_returns {marked : List Marked} : ∀ {trace : List (Exchange Api)} {result : List Offering},
    (refreshOfferings query (marked.map Prod.fst)).Returns trace result ↔
      ∃ after, Pass query marked trace after ∧ result = after.map Prod.fst := by
  induction marked with
  | nil =>
    intro trace result
    rw [List.map_nil, refreshOfferings, returns_pure]
    constructor
    · rintro ⟨rfl, rfl⟩
      exact ⟨[], .nil, rfl⟩
    · rintro ⟨after, pass, rfl⟩
      cases pass
      exact ⟨rfl, rfl⟩
  | cons m rest ih =>
    intro trace result
    obtain ⟨offering, failed⟩ := m
    rw [List.map_cons]
    cases asks : query offering with
    | none =>
      rw [refreshOfferings, asks]
      dsimp only
      rw [returns_bind]
      constructor
      · rintro ⟨first, second, refreshed, rfl, ran, ended⟩
        obtain ⟨rfl, rfl⟩ := returns_pure.mp ended
        obtain ⟨after, pass, rfl⟩ := ih.mp ran
        rw [List.append_nil]
        exact ⟨_, .left asks pass, rfl⟩
      · rintro ⟨after, pass, rfl⟩
        cases pass with
        | left unasked later =>
          exact ⟨trace, [], _, by simp, ih.mpr ⟨_, later, rfl⟩, returns_pure.mpr ⟨rfl, rfl⟩⟩
        | failed asks' e later => cases asks.symm.trans asks'
        | quoted asks' quote later => cases asks.symm.trans asks'
    | some asked =>
      rw [refreshOfferings_cons asks]
      constructor
      · rintro ⟨reply, later, refreshed, rfl, ran, rfl⟩
        obtain ⟨after, pass, rfl⟩ := ih.mp ran
        cases reply with
        | error e => exact ⟨_, .failed asks e pass, rfl⟩
        | ok quote => exact ⟨_, .quoted asks quote pass, rfl⟩
      · rintro ⟨after, pass, rfl⟩
        cases pass with
        | left unasked later => cases asks.symm.trans unasked
        | failed asks' e later =>
          cases asks.symm.trans asks'
          exact ⟨.error e, _, _, rfl, ih.mpr ⟨_, later, rfl⟩, rfl⟩
        | quoted asks' quote later =>
          cases asks.symm.trans asks'
          exact ⟨.ok quote, _, _, rfl, ih.mpr ⟨_, later, rfl⟩, rfl⟩

/-- A pass keeps the identities in place. -/
theorem Pass.ids {marked after : List Marked} (pass : Pass query marked trace after) :
    after.map (fun m => m.1.id) = marked.map fun m => m.1.id := by
  induction pass with
  | nil => rfl
  | left _ _ ih | failed _ _ _ ih | quoted _ _ _ ih => simpa using ih

/-- Every failed observation is of one of these providers, and has left a zero timestamp. -/
def Zeroed (providers : List String) (marked : List Marked) : Prop :=
  ∀ m ∈ marked, m.2 = true → m.1.observedAt = 0 ∧ m.1.provider ∈ providers

/-- A pass asks about one provider only, so it leaves the failures of the others as they are. -/
theorem Pass.zeroed {marked after : List Marked} {providers : List String} {name : String}
    (only : ∀ x, query x ≠ none → x.provider = name) (other : name ∉ providers)
    (pass : Pass query marked trace after) (zeroed : Zeroed providers marked) : Zeroed (name :: providers) after := by
  induction pass with
  | nil => exact fun m member => absurd member List.not_mem_nil
  | left _ _ ih =>
    obtain ⟨first, rest⟩ := List.forall_mem_cons.mp zeroed
    exact List.forall_mem_cons.mpr ⟨fun failed => (first failed).imp_right (List.mem_cons_of_mem _), ih rest⟩
  | failed asks e _ ih =>
    have asked := only _ (by rw [asks]; exact Option.some_ne_none _)
    exact List.forall_mem_cons.mpr
      ⟨fun _ => ⟨rfl, List.mem_cons.mpr (.inl asked)⟩, ih (List.forall_mem_cons.mp zeroed).2⟩
  | quoted asks quote _ ih =>
    obtain ⟨first, rest⟩ := List.forall_mem_cons.mp zeroed
    have asked := only _ (by rw [asks]; exact Option.some_ne_none _)
    exact List.forall_mem_cons.mpr ⟨fun failed => absurd (asked ▸ (first failed).2) other, ih rest⟩

end Pass

/-! ## All three -/

/-- A pass of a provider that may not be configured. -/
def PassOf (configured : Bool) (query : Offering → Option PriceQuery) (marked : List Marked)
    (trace : List (Exchange Api)) (after : List Marked) : Prop :=
  if configured then Pass query marked trace after else trace = [] ∧ after = marked

section Passes

variable {configured : Bool} {query : Offering → Option PriceQuery} {catalog : Catalog} {marked : List Marked}
  {trace : List (Exchange Api)}

theorem refreshPrices_returns {refreshed : Catalog} (listed : catalog.offerings = marked.map Prod.fst) :
    (refreshPrices configured query catalog).Returns trace refreshed ↔
      ∃ after, PassOf configured query marked trace after ∧
        refreshed = { catalog with offerings := after.map Prod.fst } := by
  unfold refreshPrices PassOf
  cases configured with
  | false =>
    simp only [Bool.not_false, if_true, Bool.false_eq_true, if_false]
    rw [returns_pure]
    constructor
    · rintro ⟨rfl, rfl⟩
      exact ⟨marked, ⟨rfl, rfl⟩, by rw [← listed]⟩
    · rintro ⟨after, ⟨rfl, rfl⟩, rfl⟩
      exact ⟨rfl, by rw [← listed]⟩
  | true =>
    simp only [Bool.not_true, Bool.false_eq_true, if_false, if_true]
    rw [returns_bind, listed]
    constructor
    · rintro ⟨first, second, offerings, rfl, ran, ended⟩
      obtain ⟨rfl, rfl⟩ := returns_pure.mp ended
      obtain ⟨after, pass, rfl⟩ := refreshOfferings_returns.mp ran
      rw [List.append_nil]
      exact ⟨after, pass, rfl⟩
    · rintro ⟨after, pass, rfl⟩
      exact ⟨trace, [], _, by simp, refreshOfferings_returns.mpr ⟨after, pass, rfl⟩,
        returns_pure.mpr ⟨rfl, rfl⟩⟩

theorem PassOf.ids {after : List Marked} (pass : PassOf configured query marked trace after) :
    after.map (fun m => m.1.id) = marked.map fun m => m.1.id := by
  unfold PassOf at pass
  split at pass
  · exact pass.ids
  · rw [pass.2]

theorem PassOf.zeroed {after : List Marked} {providers : List String} (name : String)
    (only : ∀ x, query x ≠ none → x.provider = name) (other : name ∉ providers)
    (pass : PassOf configured query marked trace after) (zeroed : Zeroed providers marked) :
    Zeroed (name :: providers) after := by
  unfold PassOf at pass
  split at pass
  · exact pass.zeroed only other zeroed
  · rw [pass.2]
    exact fun m member failed => (zeroed m member failed).imp_right (List.mem_cons_of_mem _)

end Passes

/-- What `HandleDesiredRunnerCount` does with the catalog it has read. -/
def refresh (o : Operator) (catalog : Catalog) : Program Api Catalog := do
  let catalog ← o.refreshAWSPrices catalog
  let catalog ← o.refreshAzurePrices catalog
  o.refreshGCPPrices catalog

/-- The three passes over unmarked offerings. -/
def Refreshes (o : Operator) (offerings : List Offering) (trace : List (Exchange Api)) (marked : List Marked) :
    Prop :=
  ∃ aws azure first second third, trace = first ++ (second ++ third) ∧
    PassOf o.awsPrices (fun x => if x.provider ≠ "aws" || !x.spot then none else some (.aws x.region x.zone x.machine))
      (offerings.map fun x => (x, false)) first aws ∧
    PassOf o.azurePrices
      (fun x => if x.provider ≠ "azure" || !x.spot then none else some (.azure x.region x.zone x.machine))
      aws second azure ∧
    PassOf o.gcpPrices
      (fun x => if x.provider ≠ "gcp" then none
        else x.gcpSkuRefs.map fun refs => .gcp refs.coreSkuID refs.ramSkuID x.cpu x.memoryMiB)
      azure third marked

section Refresh

variable {o : Operator} {catalog : Catalog} {trace : List (Exchange Api)} {marked : List Marked}

/-- Every run of the refresh, with the observations that failed in it. -/
theorem refresh_returns {refreshed : Catalog} : (refresh o catalog).Returns trace refreshed ↔
    ∃ marked, Refreshes o catalog.offerings trace marked ∧
      refreshed = { catalog with offerings := marked.map Prod.fst } := by
  have unmarked : catalog.offerings = (catalog.offerings.map fun x => (x, false)).map Prod.fst := by
    rw [List.map_map]
    exact (List.map_id _).symm
  unfold refresh
  rw [returns_bind]
  constructor
  · rintro ⟨first, rest, _, rfl, ran, goesOn⟩
    obtain ⟨aws, pass, rfl⟩ := (refreshPrices_returns unmarked).mp ran
    obtain ⟨second, third, _, rfl, ran', ran''⟩ := returns_bind.mp goesOn
    obtain ⟨azure, pass', rfl⟩ := (refreshPrices_returns rfl).mp ran'
    obtain ⟨gcp, pass'', rfl⟩ := (refreshPrices_returns rfl).mp ran''
    exact ⟨gcp, ⟨aws, azure, first, second, third, rfl, pass, pass', pass''⟩, rfl⟩
  · rintro ⟨marked, ⟨aws, azure, first, second, third, rfl, pass, pass', pass''⟩, rfl⟩
    refine ⟨first, _, _, rfl, (refreshPrices_returns unmarked).mpr ⟨aws, pass, rfl⟩, returns_bind.mpr ?_⟩
    exact ⟨second, third, _, rfl, (refreshPrices_returns rfl).mpr ⟨azure, pass', rfl⟩,
      (refreshPrices_returns rfl).mpr ⟨marked, pass'', rfl⟩⟩

theorem Refreshes.ids (refreshes : Refreshes o catalog.offerings trace marked) :
    marked.map (fun m => m.1.id) = catalog.offerings.map Offering.id := by
  obtain ⟨aws, azure, first, second, third, _, pass, pass', pass''⟩ := refreshes
  rw [pass''.ids, pass'.ids, pass.ids, List.map_map]
  rfl

/-- A failure is left as a zero timestamp: no later pass asks about that offering. -/
theorem Refreshes.observedAt (refreshes : Refreshes o catalog.offerings trace marked) :
    ∀ m ∈ marked, m.2 = true → m.1.observedAt = 0 := by
  obtain ⟨aws, azure, first, second, third, _, pass, pass', pass''⟩ := refreshes
  have start : Zeroed [] (catalog.offerings.map fun x => (x, false)) := by simp [Zeroed]
  have one := pass.zeroed "aws" (by simp +contextual) (by decide) start
  have two := pass'.zeroed "azure" (by simp +contextual) (by decide) one
  have three := pass''.zeroed "gcp" (by simp +contextual) (by decide) two
  exact fun m member failed => (three m member failed).1

end Refresh

/-! ## Where a failure is harmless -/

theorem mem_remaining {marked : List Marked} {x : Offering} : x ∈ remaining marked ↔ (x, false) ∈ marked := by
  simp [remaining]

section Choice

variable {marked : List Marked} {r : Requirements} {outcomes : GoMap String Outcome} {x : Offering}

/-- An offering in scope is one of those that remain. -/
theorem mem_remaining_of_inScope (outside : ∀ m ∈ marked, m.2 = true → inScope m.1 r = false)
    (inside : inScope x r = true) : x ∈ marked.map Prod.fst ↔ x ∈ remaining marked := by
  rw [mem_remaining]
  constructor
  · intro member
    obtain ⟨⟨y, failed⟩, listed, rfl⟩ := List.mem_map.mp member
    cases failed with
    | false => exact listed
    | true =>
      rw [outside _ listed rfl] at inside
      cases inside
  · exact fun listed => List.mem_map.mpr ⟨_, listed, rfl⟩

theorem candidate_inScope {spot : Bool} (chosen : candidate r outcomes spot x = true) : inScope x r = true := by
  simp only [candidate, Bool.and_eq_true] at chosen
  exact eligible_inScope chosen.1.1

theorem least_remaining {spot : Bool} (outside : ∀ m ∈ marked, m.2 = true → inScope m.1 r = false)
    (least : Least (remaining marked) (candidate r outcomes spot) x) :
    Least (marked.map Prod.fst) (candidate r outcomes spot) x := by
  obtain ⟨member, chosen, least⟩ := least
  refine ⟨(mem_remaining_of_inScope outside (candidate_inScope chosen)).mpr member, chosen, fun y listed other => ?_⟩
  exact least y ((mem_remaining_of_inScope outside (candidate_inScope other)).mp listed) other

end Choice

/-- Where `Choose` finds an offering without those whose observation failed, it finds that
    offering in the whole refreshed catalog if and only if the failed ones are out of the
    scope of the requirements and the pool IDs of the catalog are non-empty and distinct. -/
theorem failed_observation_isolated {o : Operator} {catalog : Catalog} {trace : List (Exchange Api)}
    {marked : List Marked} {now : Time} {r : Requirements} {outcomes : GoMap String Outcome} {x : Offering}
    (refreshes : Refreshes o catalog.offerings trace marked)
    (chosen : choose now r { catalog with offerings := remaining marked } outcomes = .ok x) :
    (refresh o catalog).Returns trace { catalog with offerings := marked.map Prod.fst } ∧
      (choose now r { catalog with offerings := marked.map Prod.fst } outcomes = .ok x ↔
        (∀ m ∈ marked, m.2 = true → inScope m.1 r = false) ∧
        (∀ y ∈ catalog.offerings, y.id ≠ "") ∧ (catalog.offerings.map Offering.id).Nodup) := by
  refine ⟨refresh_returns.mpr ⟨marked, refreshes, rfl⟩, ?_⟩
  obtain ⟨sound, choice⟩ := choose_iff.mp chosen
  have ids : (marked.map Prod.fst).map Offering.id = catalog.offerings.map Offering.id := by
    rw [← refreshes.ids, List.map_map]
    rfl
  have names : (∀ y ∈ marked.map Prod.fst, y.id ≠ "") ↔ ∀ y ∈ catalog.offerings, y.id ≠ "" := by
    simpa using congrArg (fun ids : List String => ∀ id ∈ ids, id ≠ "") ids
  rw [← names, ← ids]
  constructor
  · intro whole
    have sound := sound_of_choose whole
    refine ⟨fun m member failed => ?_, sound.named, sound.distinct⟩
    by_contra inside
    -- a failed observation has no time, and `Choose` takes no such offering in scope
    have fresh := sound.fresh m.1 (List.mem_map_of_mem member) (Bool.not_eq_false _ ▸ inside)
    simp [invalidOrStale, refreshes.observedAt m member failed] at fresh
  · rintro ⟨outside, named, distinct⟩
    -- in scope the catalog and the remaining one have the same offerings
    have scannable : Scannable now r (marked.map Prod.fst) :=
      ⟨named, distinct, fun y member inside =>
        sound.fresh y ((mem_remaining_of_inScope outside inside).mp member) inside⟩
    refine choose_iff.mpr ⟨⟨scannable, sound.valid, sound.complete⟩, ?_⟩
    obtain least | ⟨rejected, allowed, least⟩ := choice
    · exact .inl (least_remaining outside least)
    · refine .inr ⟨fun y member spot suits => ?_, allowed, least_remaining outside least⟩
      exact rejected y ((mem_remaining_of_inScope outside (eligible_inScope suits)).mp member) spot suits

/-! ### A catalog of two pools -/

def awsPool (id region : String) : Offering where
  id := id
  provider := "aws"
  region := region
  zone := "z"
  machine := id
  image := "i"
  cpu := 2
  memoryMiB := 4096
  architecture := "amd64"
  spot := true
  priceMicros := 50
  currency := "USD"
  observedAt := 1

def awsNeeds : Requirements where
  cpu := 2
  memoryMiB := 4096
  architecture := "amd64"
  providers := ["aws"]
  regions := ["r1"]
  maxPriceMicros := 100
  policy := "lowest-price"

def pricedOperator : Operator where
  config := { name := "s" }
  awsPrices := true

/-- The observation of `first` succeeds, that of `second` in `region` fails. -/
def twoPrices (region : String) : List (Exchange Api) :=
  [⟨.observePrice (.aws "r1" "z" "first"), .ok ⟨40, "USD", 5⟩⟩,
    ⟨.observePrice (.aws region "z" "second"), .error (.new "throttled")⟩]

def twoMarked (region : String) : List Marked :=
  [({ awsPool "first" "r1" with priceMicros := 40, observedAt := 5 }, false),
    ({ awsPool "second" region with observedAt := 0 }, true)]

def twoAws (region : String) : Catalog where
  offerings := [awsPool "first" "r1", awsPool "second" region]
  complete := AList.singleton "aws" true

theorem twoPrices_refreshes (region : String) :
    Refreshes pricedOperator (twoAws region).offerings (twoPrices region) (twoMarked region) := by
  refine ⟨twoMarked region, twoMarked region, twoPrices region, [], [], by simp, ?_, ⟨rfl, rfl⟩, ⟨rfl, rfl⟩⟩
  exact .quoted rfl ⟨40, "USD", 5⟩ (.failed rfl (.new "throttled") .nil)

theorem failed_observation_isolated_elsewhere :
    choose 6 awsNeeds { twoAws "r2" with offerings := (twoMarked "r2").map Prod.fst } ∅ =
      .ok { awsPool "first" "r1" with priceMicros := 40, observedAt := 5 } :=
  (failed_observation_isolated (twoPrices_refreshes "r2") (by decide +kernel)).2.mpr
    ⟨by decide +kernel, by decide +kernel, by decide +kernel⟩

/-- With both pools in scope the failure of one excludes the other as well: without it
    the other would be chosen, with it nothing is. -/
theorem failed_observation_spreads :
    ∃ (trace : List (Exchange Api)) (marked : List Marked) (x : Offering),
      Refreshes pricedOperator (twoAws "r1").offerings trace marked ∧
      (refresh pricedOperator (twoAws "r1")).Returns trace { twoAws "r1" with offerings := marked.map Prod.fst } ∧
      x.spot = true ∧ choose 6 awsNeeds { twoAws "r1" with offerings := remaining marked } ∅ = .ok x ∧
      ∀ y, choose 6 awsNeeds { twoAws "r1" with offerings := marked.map Prod.fst } ∅ ≠ .ok y := by
  refine ⟨twoPrices "r1", twoMarked "r1", { awsPool "first" "r1" with priceMicros := 40, observedAt := 5 },
    twoPrices_refreshes "r1", refresh_returns.mpr ⟨_, twoPrices_refreshes "r1", rfl⟩, rfl, ?_, fun y chosen => ?_⟩
  · decide +kernel
  · have fresh := (sound_of_choose chosen).fresh { awsPool "second" "r1" with observedAt := 0 }
      (List.mem_cons_of_mem _ List.mem_cons_self) (by decide +kernel)
    cases fresh

end RunnerScout.Operator
