import Mathlib.Data.List.Sort
import RunnerScout.Golang

/-! # Placement: choosing one offering of a finite catalog -/

namespace RunnerScout.Placement

variable {o : Offering}

structure Requirements where
  cpu : Int := 0
  memoryMiB : Int := 0
  architecture : String := ""
  vendor : String := ""
  capabilities : List String := []
  providers : List String := []
  regions : List String := []
  maxPriceMicros : Int := 0
  allowOnDemand : Bool := false
  policy : String := ""
deriving DecidableEq, Repr

structure GCPSkuRefs where
  coreSkuID : String
  ramSkuID : String
deriving DecidableEq, Repr

structure Offering where
  id : String := ""
  provider : String := ""
  region : String := ""
  zone : String := ""
  machine : String := ""
  image : String := ""
  cpu : Int := 0
  memoryMiB : Int := 0
  architecture : String := ""
  vendor : String := ""
  capabilities : List String := []
  spot : Bool := false
  priceMicros : Int := 0
  currency : String := ""
  observedAt : Time := 0
  gcpSkuRefs : Option GCPSkuRefs := none
deriving DecidableEq, Repr

structure Catalog where
  offerings : List Offering := []
  complete : GoMap String Bool := ∅

/-- What an earlier attempt learned about a pool; an absent entry is the empty string. -/
inductive Outcome where
  | capacityRejected
  | unknown
  | coolingDown
deriving DecidableEq, Repr

def errIncomplete : GoError := ⟨[.incomplete], "catalog or spot search incomplete"⟩

def errExhausted : GoError := ⟨[.exhausted], "eligible capacity exhausted"⟩

def maxPriceAge : Duration := 5 * minute

def maxPriceMicrosCeiling : Int := 100000000000

def Requirements.validate (r : Requirements) : Option GoError :=
  if r.cpu < 1 ∨ r.memoryMiB < 1 ∨ r.maxPriceMicros < 1 ∨ r.maxPriceMicros > maxPriceMicrosCeiling then
    some (.new "positive cpu, memoryMiB and maxPriceMicros required, maxPriceMicros must not exceed 100000000000")
  else if r.architecture ≠ "amd64" ∧ r.architecture ≠ "arm64" then
    some (.new "architecture must be amd64 or arm64")
  else if r.providers.length = 0 ∨ r.regions.length = 0 then
    some (.new "explicit provider and region scope required")
  else if r.policy ≠ "lowest-price" then
    some (.new "unsupported policy")
  else none

def inScope (o : Offering) (r : Requirements) : Bool :=
  r.providers.contains o.provider && r.regions.contains o.region

def eligible (o : Offering) (r : Requirements) : Bool :=
  if !inScope o r || o.cpu < r.cpu || o.memoryMiB < r.memoryMiB || o.architecture ≠ r.architecture
      || o.priceMicros > r.maxPriceMicros then
    false
  else if r.vendor ≠ "" ∧ o.vendor ≠ r.vendor then
    false
  else r.capabilities.all o.capabilities.contains

/-- The check `Choose` makes of every offering in scope before it looks at eligibility. -/
def invalidOrStale (now : Time) (o : Offering) : Bool :=
  o.cpu < 1 || o.memoryMiB < 1 || o.image = "" || o.machine = "" || o.zone = "" || o.priceMicros < 0
    || o.currency ≠ "USD" || o.observedAt = 0 || now < o.observedAt || now - o.observedAt > maxPriceAge

/-- The loop variables of `Choose`. -/
structure Scan where
  seen : List String := []
  spot : List Offering := []
  ondemand : List Offering := []
  blocked : Bool := false
  onDemandBlocked : Bool := false

def scan (now : Time) (r : Requirements) (outcomes : GoMap String Outcome) :
    List Offering → Scan → Except GoError Scan
  | [], s => .ok s
  | o :: rest, s =>
    if o.id = "" ∨ s.seen.contains o.id then .error (.new "missing or duplicate pool identity")
    else
      let s := { s with seen := o.id :: s.seen }
      if !inScope o r then scan now r outcomes rest s
      else if invalidOrStale now o then
        .error ⟨[.incomplete], "catalog or spot search incomplete: invalid or stale pool " ++ o.id⟩
      else if !eligible o r then scan now r outcomes rest s
      else if !o.spot then
        match outcomes.lookup o.id with
        | none => scan now r outcomes rest { s with ondemand := s.ondemand ++ [o] }
        | some .capacityRejected => scan now r outcomes rest s
        | some _ => scan now r outcomes rest { s with onDemandBlocked := true }
      else
        match outcomes.lookup o.id with
        | none => scan now r outcomes rest { s with spot := s.spot ++ [o] }
        | some .capacityRejected => scan now r outcomes rest s
        | some _ => scan now r outcomes rest { s with blocked := true }

/-- `rank(a, b) <= 0`.  Pool identities are distinct by then, so the sorted list is
    unique and `SortFunc` not being stable does not show. -/
def ranked (a b : Offering) : Prop :=
  a.priceMicros < b.priceMicros ∨ (a.priceMicros = b.priceMicros ∧ a.id ≤ b.id)

instance : DecidableRel ranked := fun a b =>
  inferInstanceAs (Decidable (a.priceMicros < b.priceMicros ∨ (a.priceMicros = b.priceMicros ∧ a.id ≤ b.id)))

def choose (now : Time) (r : Requirements) (c : Catalog) (outcomes : GoMap String Outcome) :
    Except GoError Offering :=
  match r.validate with
  | some e => .error e
  | none =>
    if !r.providers.all (fun p => (c.complete.lookup p).getD false) then .error errIncomplete
    else
      match scan now r outcomes c.offerings {} with
      | .error e => .error e
      | .ok s =>
        match s.spot.insertionSort ranked with
        | o :: _ => .ok o
        | [] =>
          if s.blocked then .error errIncomplete
          else if !r.allowOnDemand then .error errExhausted
          else
            match s.ondemand.insertionSort ranked with
            | o :: _ => .ok o
            | [] => if s.onDemandBlocked then .error errIncomplete else .error errExhausted

/-! ## What a chosen offering satisfies -/

theorem eligible_inScope {r : Requirements} (eligible : eligible o r = true) : inScope o r = true := by
  cases scope : inScope o r with
  | true => rfl
  | false => simp [Placement.eligible, scope] at eligible

section Scanning

variable {now : Time} {r : Requirements} {outcomes : GoMap String Outcome}

/-- What one turn of the loop does with an offering. -/
inductive Turn (now : Time) (r : Requirements) (outcomes : GoMap String Outcome) (s : Scan) (o : Offering) :
    Scan → Prop where
  | passed (ineligible : eligible o r = false) : Turn now r outcomes s o { s with seen := o.id :: s.seen }
  | rejected (outcome : outcomes.lookup o.id = some .capacityRejected) :
      Turn now r outcomes s o { s with seen := o.id :: s.seen }
  | spot (fresh : invalidOrStale now o = false) (suits : eligible o r = true) (kind : o.spot = true)
      (untried : outcomes.lookup o.id = none) :
      Turn now r outcomes s o { s with seen := o.id :: s.seen, spot := s.spot ++ [o] }
  | blocked (kind : o.spot = true) : Turn now r outcomes s o { s with seen := o.id :: s.seen, blocked := true }
  | ondemand (fresh : invalidOrStale now o = false) (suits : eligible o r = true) (kind : o.spot = false)
      (untried : outcomes.lookup o.id = none) :
      Turn now r outcomes s o { s with seen := o.id :: s.seen, ondemand := s.ondemand ++ [o] }
  | onDemandBlocked (kind : o.spot = false) :
      Turn now r outcomes s o { s with seen := o.id :: s.seen, onDemandBlocked := true }

theorem scan_turn {rest : List Offering} {s final : Scan} (scanned : scan now r outcomes (o :: rest) s = .ok final) :
    o.id ∉ s.seen ∧ ∃ next, Turn now r outcomes s o next ∧ scan now r outcomes rest next = .ok final := by
  simp only [scan] at scanned
  split at scanned
  · cases scanned
  rename_i named
  have unseen : o.id ∉ s.seen := by
    simp only [List.contains_iff_mem, not_or] at named
    exact named.2
  refine ⟨unseen, ?_⟩
  split at scanned
  · rename_i outside
    refine ⟨_, .passed (Bool.eq_false_iff.mpr fun suits => ?_), scanned⟩
    simp [eligible_inScope suits] at outside
  split at scanned
  · cases scanned
  rename_i fresh
  split at scanned
  · rename_i unsuited
    exact ⟨_, .passed (by simpa using unsuited), scanned⟩
  rename_i suits
  simp only [Bool.not_eq_true] at fresh
  split at scanned
  · rename_i kind
    have kind : o.spot = false := by simpa using kind
    split at scanned
    · rename_i untried
      exact ⟨_, .ondemand fresh (by simpa using suits) kind untried, scanned⟩
    · rename_i rejected
      exact ⟨_, .rejected rejected, scanned⟩
    · exact ⟨_, .onDemandBlocked kind, scanned⟩
  · rename_i kind
    have kind : o.spot = true := by simpa using kind
    split at scanned
    · rename_i untried
      exact ⟨_, .spot fresh (by simpa using suits) kind untried, scanned⟩
    · rename_i rejected
      exact ⟨_, .rejected rejected, scanned⟩
    · exact ⟨_, .blocked kind, scanned⟩

/-- What the scan knows of the offerings it has been through. -/
structure Scan.Covers (now : Time) (r : Requirements) (outcomes : GoMap String Outcome) (through : List Offering)
    (s : Scan) : Prop where
  seen : s.seen = (through.map Offering.id).reverse
  distinct : (through.map Offering.id).Nodup
  spot : ∀ o ∈ s.spot, o ∈ through ∧ invalidOrStale now o = false ∧ eligible o r = true ∧
    o.spot = true ∧ outcomes.lookup o.id = none
  ondemand : ∀ o ∈ s.ondemand, o ∈ through ∧ invalidOrStale now o = false ∧ eligible o r = true ∧
    o.spot = false ∧ outcomes.lookup o.id = none
  /-- Nothing is passed over but what has been rejected. -/
  exhausted : ∀ o ∈ through, o.spot = true → eligible o r = true →
    o ∈ s.spot ∨ s.blocked = true ∨ outcomes.lookup o.id = some .capacityRejected

theorem Turn.covers {through : List Offering} {s next : Scan} (turn : Turn now r outcomes s o next)
    (unseen : o.id ∉ s.seen) (covers : s.Covers now r outcomes through) :
    next.Covers now r outcomes (through ++ [o]) := by
  obtain ⟨seen, distinct, spot, ondemand, exhausted⟩ := covers
  have distinct : ((through ++ [o]).map Offering.id).Nodup := by
    rw [seen, List.mem_reverse] at unseen
    rw [List.map_append, List.nodup_append]
    refine ⟨distinct, List.nodup_singleton _, fun id earlier id' this => ?_⟩
    rw [List.map_singleton, List.mem_singleton] at this
    rintro rfl
    exact unseen (this ▸ earlier)
  have noted : o.id :: s.seen = ((through ++ [o]).map Offering.id).reverse := by simp [seen]
  have earlier {P : Offering → Prop} (known : ∀ x ∈ through, P x) (this : P o) : ∀ x ∈ through ++ [o], P x := by
    intro x member
    obtain old | new := List.mem_append.mp member
    · exact known x old
    · rw [List.mem_singleton.mp new]
      exact this
  have spot (x : Offering) (member : x ∈ s.spot) := (spot x member).imp_left (List.mem_append_left [o])
  have ondemand (x : Offering) (member : x ∈ s.ondemand) := (ondemand x member).imp_left (List.mem_append_left [o])
  have here : o ∈ through ++ [o] := List.mem_append_right _ List.mem_cons_self
  cases turn with
  | passed ineligible =>
    refine ⟨noted, distinct, spot, ondemand, earlier exhausted fun _ suits => ?_⟩
    rw [ineligible] at suits
    cases suits
  | rejected outcome => exact ⟨noted, distinct, spot, ondemand, earlier exhausted fun _ _ => .inr (.inr outcome)⟩
  | spot fresh suits kind untried =>
    refine ⟨noted, distinct, fun x member => ?_, ondemand, earlier (fun x member isSpot suits => ?_) fun _ _ => ?_⟩
    · obtain old | new := List.mem_append.mp member
      · exact spot x old
      · rw [List.mem_singleton.mp new]
        exact ⟨here, fresh, suits, kind, untried⟩
    · exact (exhausted x member isSpot suits).imp_left (List.mem_append_left [o])
    · exact .inl (List.mem_append_right _ List.mem_cons_self)
  | blocked kind =>
    exact ⟨noted, distinct, spot, ondemand, fun _ _ _ _ => .inr (.inl rfl)⟩
  | ondemand fresh suits kind untried =>
    refine ⟨noted, distinct, spot, fun x member => ?_, earlier exhausted fun isSpot => ?_⟩
    · obtain old | new := List.mem_append.mp member
      · exact ondemand x old
      · rw [List.mem_singleton.mp new]
        exact ⟨here, fresh, suits, kind, untried⟩
    · rw [kind] at isSpot
      cases isSpot
  | onDemandBlocked kind =>
    refine ⟨noted, distinct, spot, ondemand, earlier exhausted fun isSpot => ?_⟩
    rw [kind] at isSpot
    cases isSpot

theorem scan_covers {offerings : List Offering} : ∀ {through : List Offering} {s final : Scan},
    s.Covers now r outcomes through → scan now r outcomes offerings s = .ok final →
    final.Covers now r outcomes (through ++ offerings) := by
  induction offerings with
  | nil =>
    intro through s final covers scanned
    cases scanned
    rw [List.append_nil]
    exact covers
  | cons o rest ih =>
    intro through s final covers scanned
    obtain ⟨unseen, next, turn, scanned⟩ := scan_turn scanned
    rw [List.append_cons]
    exact ih (turn.covers unseen covers) scanned

end Scanning

theorem mem_of_insertionSort_head {offerings rest : List Offering}
    (sorted : offerings.insertionSort ranked = o :: rest) : o ∈ offerings := by
  have member : o ∈ offerings.insertionSort ranked := by rw [sorted]; exact List.mem_cons_self
  exact (List.mem_insertionSort ranked).mp member

/-- What a choice tells about the catalog it was made from. -/
structure Chosen (now : Time) (r : Requirements) (c : Catalog) (outcomes : GoMap String Outcome) (o : Offering) :
    Prop where
  listed : o ∈ c.offerings
  distinct : (c.offerings.map Offering.id).Nodup
  fresh : invalidOrStale now o = false
  suits : eligible o r = true
  untried : outcomes.lookup o.id = none
  complete : ∀ p ∈ r.providers, (c.complete.lookup p).getD false = true
  /-- An on-demand offering is only chosen once every spot offering has been rejected. -/
  exhausted : o.spot = false → r.allowOnDemand = true ∧
    ∀ x ∈ c.offerings, x.spot = true → eligible x r = true → outcomes.lookup x.id = some .capacityRejected

theorem choose_chosen {now : Time} {r : Requirements} {c : Catalog} {outcomes : GoMap String Outcome}
    (chosen : choose now r c outcomes = .ok o) : Chosen now r c outcomes o := by
  unfold choose at chosen
  split at chosen
  · cases chosen
  split at chosen
  · cases chosen
  rename_i complete
  have complete : ∀ p ∈ r.providers, (c.complete.lookup p).getD false = true := by simpa using complete
  split at chosen
  · cases chosen
  rename_i s scanned
  have covers : s.Covers now r outcomes c.offerings := by
    have start : Scan.Covers now r outcomes [] {} := ⟨rfl, List.nodup_nil, by simp, by simp, by simp⟩
    exact scan_covers start scanned
  split at chosen
  · rename_i sorted
    cases chosen
    obtain ⟨listed, fresh, suits, kind, untried⟩ := covers.spot _ (mem_of_insertionSort_head sorted)
    refine ⟨listed, covers.distinct, fresh, suits, untried, complete, fun other => ?_⟩
    rw [kind] at other
    cases other
  · rename_i none
    have none : s.spot = [] := List.length_eq_zero_iff.mp (by rw [← List.length_insertionSort ranked, none]; rfl)
    split at chosen
    · cases chosen
    rename_i unblocked
    split at chosen
    · cases chosen
    rename_i allowed
    split at chosen
    · rename_i sorted
      cases chosen
      obtain ⟨listed, fresh, suits, kind, untried⟩ := covers.ondemand _ (mem_of_insertionSort_head sorted)
      refine ⟨listed, covers.distinct, fresh, suits, untried, complete, fun _ => ⟨by simpa using allowed, ?_⟩⟩
      intro x member isSpot suits
      obtain inside | blocked | rejected := covers.exhausted x member isSpot suits
      · rw [none] at inside
        cases inside
      · exact absurd blocked unblocked
      · exact rejected
    · split at chosen <;> cases chosen

theorem eligible_price {r : Requirements} (eligible : eligible o r = true) :
    o.priceMicros ≤ r.maxPriceMicros := by
  unfold Placement.eligible at eligible
  split at eligible
  · cases eligible
  · rename_i within
    simp only [Bool.or_eq_true, not_or, decide_eq_true_eq, Int.not_lt] at within
    exact within.2

end RunnerScout.Placement
