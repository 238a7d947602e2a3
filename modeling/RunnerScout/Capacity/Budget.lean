import Mathlib.Algebra.Order.BigOperators.Group.List
import Mathlib.Algebra.Order.Field.Rat
import Mathlib.Tactic.Ring
import RunnerScout.Capacity.Slots

/-! # The daily budget

The ceiling of a day bounds what the allocations stamped on it can cost at worst.
The gate computes with 64-bit integers, and nothing in it overflows for a valid
configuration; every allocation keeps the reservation of the configuration the
fleet is bound to, which covers any price `Choose` lets through; and a timed-out
allocation is forgotten only after its own day is over.
-/

namespace RunnerScout.Capacity

open Interaction Lifecycle Operator State

variable {id : String} {r : Allocation}

/-! ## Arithmetic of the gate -/

/-- The limits `Config.Validate` sets to price and lifetime. -/
structure Priced (maxPriceMicros maxLifetimeSeconds : Int) : Prop where
  price : 1 ≤ maxPriceMicros ∧ maxPriceMicros ≤ 100000000000
  lifetime : 1 ≤ maxLifetimeSeconds ∧ maxLifetimeSeconds ≤ 21600

theorem validate_priced {checks : TextChecks} {c : Config} (valid : c.validate checks = none) :
    Priced c.requirements.maxPriceMicros c.maxLifetimeSeconds := by
  unfold Config.validate at valid
  split at valid
  · cases valid
  split at valid
  · cases valid
  split at valid
  · cases valid
  split at valid
  · cases valid
  split at valid
  · cases valid
  split at valid
  · cases valid
  rename_i limits
  split at valid
  · cases valid
  split at valid
  · cases valid
  split at valid
  · cases valid
  rename_i requirements
  unfold Placement.Requirements.validate at requirements
  split at requirements
  · cases requirements
  rename_i price
  unfold Placement.maxPriceMicrosCeiling at price
  exact ⟨by omega, by omega⟩

section Reservation

variable {m : Type → Type} [Monad m] [LawfulMonad m] {ops : Int64Ops m} {p l : Int}

/-- The price of a whole lifetime, in microdollar seconds per hour. -/
theorem Priced.product (priced : Priced p l) : 1 ≤ p * l ∧ p * l ≤ 2160000000000000 := by
  obtain ⟨⟨cheap, dear⟩, ⟨short, long⟩⟩ := priced
  constructor
  · nlinarith
  · nlinarith

theorem reservationIn_exact (exact : ops.Exact) (priced : Priced p l) :
    reservationIn ops p l = pure ((p * l + 3599) / 3600) := by
  obtain ⟨low, high⟩ := priced.product
  have divides : (p * l + 3599).tdiv 3600 = (p * l + 3599) / 3600 := Int.tdiv_eq_ediv_of_nonneg (by omega)
  unfold reservationIn
  rw [exact.mul ⟨by omega, by omega⟩, pure_bind, exact.add ⟨by omega, by omega⟩, pure_bind,
    exact.div (by decide) (by rw [divides]; exact ⟨by omega, by omega⟩), divides]

theorem reservationMicros_eq (priced : Priced p l) : reservationMicros p l = (p * l + 3599) / 3600 := by
  rw [reservationMicros, reservationIn_exact wrapping_exact priced]
  rfl

theorem reservationMicros_range (priced : Priced p l) :
    1 ≤ reservationMicros p l ∧ reservationMicros p l ≤ 600000000001 := by
  obtain ⟨low, high⟩ := priced.product
  rw [reservationMicros_eq priced]
  omega

/-- Rounding up, the reservation covers every second of the lifetime. -/
theorem reservationMicros_covers (priced : Priced p l) : p * l ≤ reservationMicros p l * 3600 := by
  rw [reservationMicros_eq priced]
  omega

end Reservation

/-- Reservations small enough, and few enough, for their sum. -/
structure Summable (f : Fleet) : Prop where
  range : ∀ entry ∈ f.reserved.entries, 0 ≤ entry.2 ∧ entry.2 ≤ 600000000001
  count : f.reserved.entries.length ≤ 1000

/-- What `spentToday` adds up, over the integers. -/
def spent (f : Fleet) (allocs : List Allocation) (now : Time) : Int :=
  (f.reserved.entries.map fun entry => if counts f allocs now entry.1 then entry.2 else 0).sum

section Gate

variable {m : Type → Type} [Monad m] [LawfulMonad m] {ops : Int64Ops m} {f : Fleet} {allocs : List Allocation}
  {now : Time} {c : Config}

theorem sum_range {α : Type} {value : α → Int} (counted : α → Bool) {bound : Int} (nonneg : 0 ≤ bound) :
    ∀ {entries : List α}, (∀ entry ∈ entries, 0 ≤ value entry ∧ value entry ≤ bound) →
      0 ≤ (entries.map fun entry => if counted entry then value entry else 0).sum ∧
        (entries.map fun entry => if counted entry then value entry else 0).sum ≤ bound * entries.length
  | [], _ => by simp
  | entry :: rest, range => by
    have more := sum_range counted nonneg fun other member => range other (List.mem_cons_of_mem _ member)
    have first := range entry List.mem_cons_self
    rw [List.map_cons, List.sum_cons, List.length_cons]
    push_cast
    rw [Int.mul_add, Int.mul_one]
    split <;> omega

/-- A loop that adds up some of its entries, while the sum of all of them is in range. -/
theorem foldlM_add_exact (exact : ops.Exact) {α : Type} {value : α → Int} {counted : α → Bool} {bound : Int}
    (nonneg : 0 ≤ bound) : ∀ {entries : List α} {total : Int},
      (∀ entry ∈ entries, 0 ≤ value entry ∧ value entry ≤ bound) → 0 ≤ total → total + bound * entries.length < 2 ^ 63 →
      entries.foldlM (fun total entry => if counted entry then ops.add total (value entry) else pure total) total =
        pure (total + (entries.map fun entry => if counted entry then value entry else 0).sum)
  | [], total, _, _, _ => by simp
  | entry :: rest, total, range, low, high => by
    have first := range entry List.mem_cons_self
    have others := fun other member => range other (List.mem_cons_of_mem _ member)
    rw [List.length_cons] at high
    push_cast at high
    rw [Int.mul_add, Int.mul_one] at high
    have room : 0 ≤ bound * rest.length := Int.mul_nonneg nonneg (Int.natCast_nonneg _)
    rw [List.foldlM_cons, List.map_cons, List.sum_cons]
    cases counted entry
    · simp only [Bool.false_eq_true, if_false, pure_bind]
      rw [foldlM_add_exact exact nonneg others low (by omega), Int.zero_add]
    · simp only [if_true]
      rw [exact.add ⟨by omega, by omega⟩, pure_bind, foldlM_add_exact exact nonneg others (by omega) (by omega),
        Int.add_assoc]

theorem spent_range (summable : Summable f) : 0 ≤ spent f allocs now ∧ spent f allocs now ≤ 600000000001000 := by
  obtain ⟨low, high⟩ := sum_range (fun entry => counts f allocs now entry.1) (by decide) summable.range
  have count := summable.count
  refine ⟨low, high.trans ?_⟩
  omega

theorem spentTodayIn_exact (exact : ops.Exact) (summable : Summable f) :
    spentTodayIn ops f allocs now = pure (spent f allocs now) := by
  have count := summable.count
  rw [spentTodayIn, foldlM_add_exact exact (by decide) summable.range (Int.le_refl 0) (by omega), Int.zero_add]
  rfl

/-- What the gate affords, over the integers. -/
def affords (c : Config) (f : Fleet) (allocs : List Allocation) (now : Time) : Int :=
  if c.budgetDailyMicros - spent f allocs now > 0 then
    (c.budgetDailyMicros - spent f allocs now) /
      reservationMicros c.requirements.maxPriceMicros c.maxLifetimeSeconds
  else 0

theorem affordableIn_exact (exact : ops.Exact) (summable : Summable f)
    (priced : Priced c.requirements.maxPriceMicros c.maxLifetimeSeconds)
    (budget : 0 ≤ c.budgetDailyMicros ∧ c.budgetDailyMicros < 2 ^ 63) :
    affordableIn ops c f allocs now = pure (affords c f allocs now) := by
  obtain ⟨low, high⟩ := @spent_range f allocs now summable
  obtain ⟨unit, _⟩ := reservationMicros_range priced
  unfold affordableIn affords
  rw [reservationIn_exact exact priced, pure_bind, spentTodayIn_exact exact summable, pure_bind,
    exact.sub ⟨by omega, by omega⟩, pure_bind, ← reservationMicros_eq priced]
  by_cases left : c.budgetDailyMicros - spent f allocs now > 0
  · have quotient := Int.ediv_le_self (reservationMicros c.requirements.maxPriceMicros c.maxLifetimeSeconds)
      (Int.le_of_lt left)
    have nonneg := Int.ediv_nonneg (Int.le_of_lt left) (Int.le_trans Int.one_nonneg unit)
    have divides := Int.tdiv_eq_ediv_of_nonneg
      (b := reservationMicros c.requirements.maxPriceMicros c.maxLifetimeSeconds) (Int.le_of_lt left)
    rw [if_pos ⟨by omega, left⟩, if_pos left,
      exact.div (by omega) (by rw [divides]; exact ⟨by omega, by omega⟩), divides]
  · rw [if_neg fun both => left both.2, if_neg left]

theorem affordable_exact (summable : Summable f) (priced : Priced c.requirements.maxPriceMicros c.maxLifetimeSeconds)
    (budget : 0 ≤ c.budgetDailyMicros ∧ c.budgetDailyMicros < 2 ^ 63) :
    affordable c f allocs now = affords c f allocs now := by
  rw [affordable, affordableIn_exact wrapping_exact summable priced budget]
  rfl

/-- A batch the gate lets through fits under the ceiling, on top of what was spent. -/
theorem affords_fits (priced : Priced c.requirements.maxPriceMicros c.maxLifetimeSeconds) {n : Int}
    (some : 0 < n) (within : n ≤ affords c f allocs now) :
    spent f allocs now + n * reservationMicros c.requirements.maxPriceMicros c.maxLifetimeSeconds ≤
      c.budgetDailyMicros := by
  obtain ⟨unit, _⟩ := reservationMicros_range priced
  unfold affords at within
  split at within
  · have product := Int.mul_le_of_le_ediv (by omega) within
    omega
  · omega

end Gate

/-! ## The reservations of a day -/

/-- The allocation was stamped on the day and has not timed out. -/
def standing (f : Fleet) (record : String → Option Allocation) (day : Int) (id : String) : Bool :=
  (f.created.lookup id).any (fun stamp => utcDay stamp = day) && !(record id).any fun r => r.phase = .timedOut

def reservedOn (f : Fleet) (record : String → Option Allocation) (day : Int) : Int :=
  (f.created.keys.map fun id => if standing f record day id then (f.reserved.lookup id).getD 0 else 0).sum

/-- What the allocations stamped on a day and not timed out have reserved. -/
def dailyReserved (name : String) (maps : Maps) (day : Int) : Int := reservedOn (maps.fleet name) maps.record day

theorem sum_constant {α : Type} {value : α → Int} {counted : α → Bool} {unit : Int} :
    ∀ {entries : List α}, (∀ entry ∈ entries, value entry = unit) →
      (entries.map fun entry => if counted entry then value entry else 0).sum =
        ((entries.filter counted).length : Int) * unit
  | [], _ => by simp
  | entry :: rest, same => by
    have more := @sum_constant α value counted unit rest fun other member => same other (List.mem_cons_of_mem _ member)
    rw [List.map_cons, List.sum_cons, more, List.filter_cons]
    cases counted entry
    · simp
    · simp only [if_true, List.length_cons, same entry List.mem_cons_self]
      push_cast
      ring

section Unit

variable {f : Fleet} {record : String → Option Allocation} {allocs : List Allocation} {now : Time} {day unit : Int}

theorem spent_constant (same : ∀ id v, f.reserved.lookup id = some v → v = unit) :
    spent f allocs now = ((f.reserved.keys.filter (counts f allocs now)).length : Int) * unit := by
  have values (entry : (_ : String) × Int) (member : entry ∈ f.reserved.entries) : entry.2 = unit :=
    same entry.1 entry.2 (AList.mem_lookup_iff.mpr member)
  rw [spent, sum_constant values, AList.keys, List.keys, List.filter_map, List.length_map]
  rfl

theorem reservedOn_constant (same : ∀ id ∈ f.created, f.reserved.lookup id = some unit) :
    reservedOn f record day = ((f.created.keys.filter (standing f record day)).length : Int) * unit :=
  sum_constant fun id member => by rw [same id (AList.mem_keys.mpr member), Option.getD_some]

theorem foldl_phases_lookup {phase : Phase} {start : GoMap String Phase}
    (found : (allocs.foldl (fun phase a => phase.insert a.id a.phase) start).lookup id = some phase) :
    start.lookup id = some phase ∨ ∃ a ∈ allocs, a.id = id ∧ a.phase = phase := by
  induction allocs generalizing start with
  | nil => exact .inl found
  | cons a rest ih =>
    obtain before | ⟨b, member, same⟩ := ih found
    · by_cases same : id = a.id
      · subst same
        rw [AList.lookup_insert] at before
        exact .inr ⟨a, List.mem_cons_self, rfl, Option.some.inj before⟩
      · rw [AList.lookup_insert_ne same] at before
        exact .inl before
    · exact .inr ⟨b, List.mem_cons_of_mem _ member, same⟩

/-- The phase found for an allocation is one that was listed for it. -/
theorem phases_lookup {phase : Phase} (found : (phases allocs).lookup id = some phase) :
    ∃ a ∈ allocs, a.id = id ∧ a.phase = phase := by
  obtain none | some := foldl_phases_lookup found
  · cases none
  · exact some

end Unit

/-! ## One reservation for all -/

/-- Every configuration a fleet can be bound to has the same requirements and lifetime. -/
theorem bind_terms {f f' : Fleet} {c : Config} (bound : f.bind c = .ok f') {b : Binding} (before : f.binding = some b) :
    b.requirements = c.requirements ∧ b.maxLifetimeSeconds = c.maxLifetimeSeconds := by
  unfold Fleet.bind at bound
  dsimp only at bound
  split at bound
  · cases bound
  rename_i accepted
  rw [before] at accepted
  by_cases same : b = c.binding
  · rw [same]
    exact ⟨rfl, rfl⟩
  · have legacy : (List.range 10).any (fun limit => some b = some (c.bindingWithLimit (limit + 1))) = true := by
      by_contra none
      exact accepted ⟨Option.some_ne_none _, fun equal => same (Option.some.inj equal), fun legacy => none legacy.2⟩
    obtain ⟨limit, _, equal⟩ := List.any_eq_true.mp legacy
    rw [Option.some.inj (of_decide_eq_true equal)]
    exact ⟨rfl, rfl⟩

/-- The reservations there are, are those of the binding. -/
structure Valued (b : Books) : Prop where
  value : ∀ id v, b.fleet.reserved.lookup id = some v → ∃ bound, b.fleet.binding = some bound ∧
    v = reservationMicros bound.requirements.maxPriceMicros bound.maxLifetimeSeconds
  created : ∀ id ∈ b.fleet.reserved, id ∈ b.fleet.created
  priced : ∀ bound, b.fleet.binding = some bound → Priced bound.requirements.maxPriceMicros bound.maxLifetimeSeconds
  retained : b.fleet.created.keys.length ≤ 1000

section Valued

variable {s : Setting} {b : Books} {o : Operator} {count : Int} {f f' : Fleet} {allocs : List Allocation} {gate : Time}
  {batch : List Slot}

theorem Valued.rebind (valued : Valued b) {c : Config} (bound : b.fleet.bind c = .ok f)
    (priced : Priced c.requirements.maxPriceMicros c.maxLifetimeSeconds) : Valued { b with fleet := f } := by
  have terms := fun {before} => @bind_terms b.fleet f c bound before
  rw [bind_frame bound]
  refine ⟨fun id v found => ?_, valued.created, fun before same => ?_, valued.retained⟩
  · obtain ⟨before, same, value⟩ := valued.value id v found
    obtain ⟨requirements, lifetime⟩ := terms same
    rw [requirements, lifetime] at value
    exact ⟨c.binding, rfl, value⟩
  · cases same
    exact priced

theorem Valued.summable (valued : Valued b) : Summable b.fleet := by
  refine ⟨fun entry member => ?_, ?_⟩
  · obtain ⟨bound, same, value⟩ := valued.value entry.1 entry.2 (AList.mem_lookup_iff.mpr member)
    obtain ⟨low, high⟩ := reservationMicros_range (valued.priced bound same)
    rw [value]
    exact ⟨by omega, high⟩
  · have inside : b.fleet.reserved.keys ⊆ b.fleet.created.keys := fun id member =>
      AList.mem_keys.mp (valued.created id (AList.mem_keys.mpr member))
    have shorter := (AList.keys_nodup b.fleet.reserved).subperm inside |>.length_le
    rw [AList.keys, List.keys, List.length_map] at shorter
    exact shorter.trans valued.retained

/-- A batch leaves a day it is stamped on under the ceiling, where the gate has seen a
    reservation for everything stamped on that day before. -/
theorem Valued.within (valued : Valued b) (forward : ∀ t shown, s.Later t shown → t ≤ shown)
    (bound : b.fleet.bind o.config = .ok f)
    (priced : Priced o.config.requirements.maxPriceMicros o.config.maxLifetimeSeconds)
    (budget : 0 < o.config.budgetDailyMicros ∧ o.config.budgetDailyMicros < 2 ^ 63) (tallied : Tallied b allocs)
    (timely : Timely s b gate batch) (admits : Admits o count f allocs gate batch f') {stamp : Time}
    (found : f'.created.lookup id = some stamp) (new : id ∉ b.fleet.created)
    (covered : ∀ other former, b.fleet.created.lookup other = some former → utcDay former = utcDay stamp →
      other ∈ b.fleet.reserved) :
    ((f'.created.keys.filter (standing f' b.record (utcDay stamp))).length : Int) * unitMicros o ≤
      o.config.budgetDailyMicros := by
  have before := valued.rebind bound priced
  have frame := bind_frame bound
  have created : f.created = b.fleet.created := by rw [frame]
  have reserved : f.reserved = b.fleet.reserved := by rw [frame]
  have same : f.binding = some o.config.binding := by rw [frame]
  -- the new allocation belongs to the batch, so the gate was passed and read before its stamp
  have nodup : ((stamps batch).map Prod.fst).Nodup := by rw [stamps_keys]; exact timely.nodup
  have member : (id, stamp) ∈ stamps batch := by
    rw [admits.created] at found
    obtain inside | ⟨_, old⟩ := GoMap.lookup_insertAll_cases nodup found
    · exact inside
    · rw [created] at old
      exact absurd (GoMap.mem_iff.mpr ⟨stamp, old⟩) new
  obtain ⟨slot, inside, equal⟩ := List.mem_map.mp member
  cases equal
  have gated : gate ≤ slot.now := forward _ _ (timely.stamped slot inside).2.1
  have some : batch ≠ [] := List.ne_nil_of_mem inside
  have affordable := admits.budget some budget.1
  rw [affordable_exact before.summable priced ⟨Int.le_of_lt budget.1, budget.2⟩] at affordable
  have fits := affords_fits priced (Int.natCast_pos.mpr (List.length_pos_iff.mpr some)) affordable
  -- whatever stood before on that day was counted by the gate
  have counted (other : String) (old : other ∈ f.created) (stands : standing f' b.record (utcDay slot.now) other = true) :
      other ∈ f.reserved ∧ counts f allocs gate other = true := by
    obtain ⟨former, known⟩ := GoMap.mem_iff.mp old
    have kept : f'.created.lookup other = .some former := by
      have unborn : other ∉ (stamps batch).map Prod.fst := by
        rw [stamps_keys]
        intro stamped
        obtain ⟨slot, inside, rfl⟩ := List.mem_map.mp stamped
        exact timely.unused slot inside (created ▸ old)
      rw [admits.created, GoMap.lookup_insertAll_of_notMem unborn]
      exact known
    simp only [standing, kept, Option.any_some, Bool.and_eq_true, decide_eq_true_eq] at stands
    obtain ⟨day, alive⟩ := stands
    have earlier : former ≤ gate := forward _ _ (timely.gated other former (created ▸ known))
    have today : utcDay gate = utcDay former := by
      have low : utcDay former ≤ utcDay gate := Int.ediv_le_ediv (by decide) earlier
      have high : utcDay gate ≤ utcDay slot.now := Int.ediv_le_ediv (by decide) gated
      rw [← day] at high
      exact Int.le_antisymm high low
    refine ⟨reserved ▸ covered other former (created ▸ known) day, ?_⟩
    unfold counts
    split
    · rename_i listed
      obtain ⟨a, inside, rfl, timedOut⟩ := phases_lookup listed
      obtain ⟨r, present, advances⟩ := tallied.known a inside
      have final := (advances.final (by rw [timedOut]; rfl)).1
      simp [present, final, timedOut] at alive
    · simp [known, today]
  have short : (f'.created.keys.filter (standing f' b.record (utcDay slot.now))).length ≤
      batch.length + (f.reserved.keys.filter (counts f allocs gate)).length := by
    have subset : f'.created.keys.filter (standing f' b.record (utcDay slot.now)) ⊆
        batch.map Slot.id ++ f.reserved.keys.filter (counts f allocs gate) := by
      intro other kept
      obtain ⟨key, stands⟩ := List.mem_filter.mp kept
      have key := AList.mem_keys.mpr key
      rw [admits.created, GoMap.mem_insertAll, stamps_keys] at key
      rw [List.mem_append, List.mem_filter]
      exact key.imp_right fun old => (counted other old stands).imp_left AList.mem_keys.mp
    have shorter := ((AList.keys_nodup f'.created).filter _).subperm subset |>.length_le
    rwa [List.length_append, List.length_map] at shorter
  have unit := (reservationMicros_range priced).1
  have beforeUnit (other : String) (v : Int) (known : f.reserved.lookup other = .some v) :
      v = reservationMicros o.config.requirements.maxPriceMicros o.config.maxLifetimeSeconds := by
    obtain ⟨terms, equal, value⟩ := before.value other v known
    rw [same] at equal
    cases equal
    exact value
  rw [spent_constant beforeUnit] at fits
  refine Int.le_trans (Int.mul_le_mul_of_nonneg_right (Int.ofNat_le.mpr short) (by unfold unitMicros; omega)) ?_
  push_cast
  rw [Int.add_mul, unitMicros]
  omega

end Valued

/-- Reservations and requirements are those of the binding. -/
structure Reserved (b : Books) : Prop where
  reserved : ∀ id ∈ b.fleet.created, ∃ bound, b.fleet.binding = some bound ∧
    b.fleet.reserved.lookup id = some (reservationMicros bound.requirements.maxPriceMicros bound.maxLifetimeSeconds)
  created : ∀ id ∈ b.fleet.reserved, id ∈ b.fleet.created
  pending : ∀ id a, b.fleet.pending.lookup id = some a →
    ∃ bound, b.fleet.binding = some bound ∧ a.requirements = bound.requirements
  record : ∀ id r, b.record id = some r → ∃ bound, b.fleet.binding = some bound ∧
    r.requirements = bound.requirements ∧ r.offering.priceMicros ≤ bound.requirements.maxPriceMicros
  priced : ∀ bound, b.fleet.binding = some bound → Priced bound.requirements.maxPriceMicros bound.maxLifetimeSeconds
  retained : b.fleet.created.keys.length ≤ 1000

section Reserved

variable {s : Setting} {thread : Nat} {b after : Books} {o : Operator} {count : Int} {f f' : Fleet}
  {allocs : List Allocation} {gate : Time} {batch : List Slot}

/-- Reading the fleet changes its binding for one with the same terms. -/
theorem Reserved.rebind (reserved : Reserved b) {c : Config} (bound : b.fleet.bind c = .ok f)
    (priced : Priced c.requirements.maxPriceMicros c.maxLifetimeSeconds) : Reserved { b with fleet := f } := by
  have terms := fun {before} => @bind_terms b.fleet f c bound before
  rw [bind_frame bound]
  refine ⟨fun id member => ?_, reserved.created, fun id a found => ?_, fun id r found => ?_, fun before same => ?_,
    reserved.retained⟩
  · obtain ⟨before, same, value⟩ := reserved.reserved id member
    obtain ⟨requirements, lifetime⟩ := terms same
    rw [requirements, lifetime] at value
    exact ⟨c.binding, rfl, value⟩
  · obtain ⟨before, same, agrees⟩ := reserved.pending id a found
    exact ⟨c.binding, rfl, agrees.trans (terms same).1⟩
  · obtain ⟨before, same, agrees, within⟩ := reserved.record id r found
    rw [(terms same).1] at agrees within
    exact ⟨c.binding, rfl, agrees, within⟩
  · cases same
    exact priced

theorem keys_insertAll_length {K V : Type} [DecidableEq K] : ∀ {entries : List (K × V)} {m : GoMap K V},
    (GoMap.insertAll entries m).keys.length ≤ m.keys.length + entries.length
  | [], m => Nat.le_refl _
  | entry :: rest, m => by
    have more := @keys_insertAll_length K V _ rest (m.insert entry.1 entry.2)
    have one : (m.insert entry.1 entry.2).keys.length ≤ m.keys.length + 1 := by
      rw [AList.keys_insert, List.length_cons]
      exact Nat.succ_le_succ (List.length_erase_le ..)
    rw [List.length_cons]
    exact more.trans (by omega)

theorem Reserved.grant (reserved : Reserved b) (bound : b.fleet.bind o.config = .ok f)
    (priced : Priced o.config.requirements.maxPriceMicros o.config.maxLifetimeSeconds)
    (budget : 0 < o.config.budgetDailyMicros) (timely : Timely s b gate batch)
    (admits : Admits o count f allocs gate batch f') : Reserved { b with fleet := f' } := by
  have before := reserved.rebind bound priced
  have binding : f'.binding = some o.config.binding := by rw [admits.binding, bind_frame bound]
  have same : f.binding = some o.config.binding := by rw [bind_frame bound]
  have entries : reservations o batch = batch.map fun slot => (slot.id, unitMicros o) := if_pos budget
  have keys : (reservations o batch).map Prod.fst = batch.map Slot.id := by simp [entries, Function.comp_def]
  refine ⟨fun id member => ⟨o.config.binding, binding, ?_⟩, fun id member => ?_, fun id a found => ?_,
    fun id r found => ?_, fun bound equal => ?_, ?_⟩
  · dsimp only at member ⊢
    rw [admits.reserved]
    by_cases new : id ∈ batch.map Slot.id
    · obtain ⟨slot, inside, rfl⟩ := List.mem_map.mp new
      refine GoMap.lookup_insertAll_of_mem (by rw [keys]; exact timely.nodup) ?_
      rw [entries]
      exact List.mem_map.mpr ⟨slot, inside, rfl⟩
    · rw [GoMap.lookup_insertAll_of_notMem (by rw [keys]; exact new)]
      rw [admits.created, GoMap.mem_insertAll, stamps_keys] at member
      obtain ⟨bound, equal, value⟩ := before.reserved id (member.resolve_left new)
      rw [same] at equal
      cases equal
      exact value
  · dsimp only at member ⊢
    rw [admits.reserved, GoMap.mem_insertAll, keys] at member
    rw [admits.created, GoMap.mem_insertAll, stamps_keys]
    exact member.imp_right (before.created id)
  · dsimp only at found
    rw [admits.pending] at found
    refine ⟨o.config.binding, binding, ?_⟩
    obtain new | ⟨_, old⟩ := GoMap.lookup_insertAll_cases (by rw [admissions_keys]; exact timely.nodup) found
    · obtain ⟨slot, _, equal⟩ := List.mem_map.mp new
      cases equal
      rfl
    · obtain ⟨bound, equal, agrees⟩ := before.pending id a old
      rw [same] at equal
      cases equal
      exact agrees
  · obtain ⟨bound, equal, agrees⟩ := before.record id r found
    rw [same] at equal
    cases equal
    exact ⟨o.config.binding, binding, agrees⟩
  · rw [show ({ b with fleet := f' } : Books).fleet.binding = some o.config.binding from binding] at equal
    cases equal
    exact priced
  · dsimp only
    rw [admits.created]
    by_cases none : batch = []
    · subst none
      exact before.retained
    · have room := admits.retention none
      refine keys_insertAll_length.trans ?_
      simpa [stamps] using room

theorem Reserved.valued (reserved : Reserved b) : Valued b := by
  refine ⟨fun id v found => ?_, reserved.created, reserved.priced, reserved.retained⟩
  have known := reserved.created id (GoMap.mem_iff.mpr ⟨v, found⟩)
  obtain ⟨bound, same, value⟩ := reserved.reserved id known
  rw [found] at value
  exact ⟨bound, same, Option.some.inj value⟩

/-- A batch leaves the reservations of each day it is stamped on under the ceiling. -/
theorem Reserved.within (reserved : Reserved b) (forward : ∀ t shown, s.Later t shown → t ≤ shown)
    (bound : b.fleet.bind o.config = .ok f)
    (priced : Priced o.config.requirements.maxPriceMicros o.config.maxLifetimeSeconds)
    (budget : 0 < o.config.budgetDailyMicros ∧ o.config.budgetDailyMicros < 2 ^ 63) (tallied : Tallied b allocs)
    (timely : Timely s b gate batch) (admits : Admits o count f allocs gate batch f') {stamp : Time}
    (found : f'.created.lookup id = some stamp) (new : id ∉ b.fleet.created) :
    reservedOn f' b.record (utcDay stamp) ≤ o.config.budgetDailyMicros := by
  have after := reserved.grant bound priced budget.1 timely admits
  have binding : f'.binding = some o.config.binding := by rw [admits.binding, bind_frame bound]
  have afterUnit (other : String) (old : other ∈ f'.created) : f'.reserved.lookup other = some (unitMicros o) := by
    obtain ⟨terms, equal, value⟩ := after.reserved other old
    rw [show ({ b with fleet := f' } : Books).fleet.binding = some o.config.binding from binding] at equal
    cases equal
    exact value
  rw [reservedOn_constant afterUnit]
  refine reserved.valued.within forward bound priced budget tallied timely admits found new fun other former known _ => ?_
  obtain ⟨_, _, value⟩ := reserved.reserved other (GoMap.mem_iff.mpr ⟨former, known⟩)
  exact GoMap.mem_iff.mpr ⟨_, value⟩

theorem Reserved.move (serial : s.Serial)
    (priced : ∀ thread, Priced (s.config thread).requirements.maxPriceMicros (s.config thread).maxLifetimeSeconds)
    (budget : ∀ thread, 0 < (s.config thread).budgetDailyMicros) (reserved : Reserved b)
    (move : Move s thread b after) : Reserved after := by
  cases move with
  | idle => exact reserved
  | clock t shown => exact { reserved with }
  | draw id unused notFleet => exact { reserved with }
  | materialise id a waiting absent fresh entry =>
    refine { reserved with record := fun other r found => ?_ }
    by_cases same : other = id
    · subst same
      simp only [Function.update_self, Option.some.injEq] at found
      subst found
      obtain ⟨e, pending, takesOver⟩ := entry serial
      obtain ⟨bound, equal, agrees⟩ := reserved.pending other e pending
      refine ⟨bound, equal, takesOver.requirements.trans agrees, ?_⟩
      rw [fresh.offering]
      exact Int.le_trans Int.one_nonneg (reserved.priced bound equal).price.1
    · exact reserved.record other r (by simpa [Function.update_of_ne same] using found)
  | advance id r later found advances dated =>
    refine { reserved with record := fun other r' known => ?_ }
    by_cases same : other = id
    · subst same
      simp only [Function.update_self, Option.some.injEq] at known
      subst known
      obtain ⟨bound, equal, agrees, within⟩ := reserved.record other r found
      refine ⟨bound, equal, advances.requirements.trans agrees, ?_⟩
      obtain offering | cheaper := advances.offering
      · rw [offering]
        exact within
      · rw [← agrees]
        exact cheaper
    · exact reserved.record other r' (by simpa [Function.update_of_ne same] using known)
  | migrate f pending bound kept dropped =>
    have rebound := reserved.rebind bound (priced thread)
    refine { rebound with pending := fun id a found => ?_ }
    have same : f.pending = b.fleet.pending := by rw [bind_frame bound]
    exact rebound.pending id a (by rw [same]; exact kept id a found)
  | grant o count f f' allocs gate batch call bound tallied timely admits =>
    have config : s.config thread = o.config := by simp only [Setting.config, call, Call.operator]
    exact reserved.grant bound (config ▸ priced thread) (config ▸ budget thread) timely admits
  | retry f used reruns bound => exact { reserved.rebind bound (priced thread) with }
  | prune f ids serial bound due => exact { reserved.rebind bound (priced thread) with }
  | remove id r serial found prunable marked removable =>
    refine { reserved with record := fun other r' known => ?_ }
    by_cases same : other = id
    · subst same
      simp at known
    · exact reserved.record other r' (by simpa [Function.update_of_ne same] using known)

/-- Whatever call stamps an allocation, the reservations of that day are under its ceiling. -/
theorem Move.within (forward : ∀ t shown, s.Later t shown → t ≤ shown)
    (priced : ∀ thread, Priced (s.config thread).requirements.maxPriceMicros (s.config thread).maxLifetimeSeconds)
    (budget : ∀ thread, 0 < (s.config thread).budgetDailyMicros ∧ (s.config thread).budgetDailyMicros < 2 ^ 63)
    (reserved : Reserved b) (move : Move s thread b after) {stamp : Time}
    (found : after.fleet.created.lookup id = some stamp) (new : id ∉ b.fleet.created) :
    reservedOn after.fleet after.record (utcDay stamp) ≤ (s.config thread).budgetDailyMicros := by
  obtain ⟨o, count, f, allocs, gate, batch, config, bound, tallied, timely, admits, records⟩ := move.grants found new
  rw [records, config]
  exact reserved.within forward bound (config ▸ priced thread) (config ▸ budget thread) tallied timely admits found new

end Reserved

/-! ## What becomes of a record -/

section Later

variable {s : Setting} {thread : Nat} {b after : Books}

/-- The terms of the binding are never changed. -/
theorem Move.terms (move : Move s thread b after) {bound : Binding} (before : b.fleet.binding = some bound) :
    ∃ later, after.fleet.binding = some later ∧ later.requirements = bound.requirements ∧
      later.maxLifetimeSeconds = bound.maxLifetimeSeconds := by
  have rebound {c : Config} {f : Fleet} (binds : b.fleet.bind c = .ok f) : f.binding = some c.binding ∧
      c.binding.requirements = bound.requirements ∧ c.binding.maxLifetimeSeconds = bound.maxLifetimeSeconds := by
    obtain ⟨requirements, lifetime⟩ := bind_terms binds before
    exact ⟨by rw [bind_frame binds], requirements.symm, lifetime.symm⟩
  cases move with
  | grant o count f f' allocs gate batch call binds tallied timely admits =>
    exact ⟨_, admits.binding.trans (rebound binds).1, (rebound binds).2⟩
  | migrate f pending binds | retry f used reruns binds | prune f ids serial binds =>
    obtain ⟨same, terms⟩ := rebound binds
    exact ⟨_, same, terms⟩
  | idle | clock | draw | materialise | advance | remove => exact ⟨bound, before, rfl, rfl⟩

/-- A record that was stored: its price is within the terms, and once it has timed out
    it stays so until its own day is over. -/
structure Remembered (b : Books) (id : String) (r : Allocation) : Prop where
  created : id ∈ b.fleet.created
  price : ∃ bound, b.fleet.binding = some bound ∧ r.offering.priceMicros ≤ bound.requirements.maxPriceMicros
  timedOut : r.phase = .timedOut → (∃ r', b.record id = some r' ∧ r'.phase = .timedOut) ∨
    ∀ stamp, b.fleet.created.lookup id = some stamp → utcDay stamp < utcDay b.clock

theorem Remembered.of_record (reserved : Reserved b) (sound : Sound s b) (found : b.record id = some r) :
    Remembered b id r := by
  obtain ⟨bound, same, _, within⟩ := reserved.record id r found
  exact ⟨sound.recordCreated id (by rw [found]; exact Option.some_ne_none _), ⟨bound, same, within⟩,
    fun timedOut => .inl ⟨r, found, timedOut⟩⟩

/-- A timed-out record goes only on a later day than that of its stamp. -/
theorem Prunable.later_day (forward : ∀ t shown, s.Later t shown → t ≤ shown) (sound : Sound s b)
    (found : b.record id = some r) (prunable : Prunable s b id r) {stamp : Time}
    (known : b.fleet.created.lookup id = some stamp) : utcDay stamp < utcDay b.clock := by
  obtain zero | ⟨stamp', known', since, _, _⟩ := sound.dated id r found
  · exact absurd zero prunable.stopped
  rw [known] at known'
  cases known'
  obtain ⟨now, past, old⟩ := prunable.old
  have since : stamp ≤ r.terminalAt := forward _ _ since
  have past : now ≤ b.clock := forward _ _ past
  have apart : stamp + 24 * hour ≤ b.clock := by
    unfold terminalRetention at old
    linarith
  have day : (stamp + 24 * hour) / (24 * hour) = stamp / (24 * hour) + 1 := by
    rw [Int.add_ediv_of_dvd_right (Int.dvd_refl _), Int.ediv_self (by decide)]
  have low := Int.ediv_le_ediv (show (0 : Int) < 24 * hour by decide) apart
  rw [day] at low
  exact Int.lt_of_lt_of_le (Int.lt_succ _) low

theorem Remembered.move (forward : ∀ t shown, s.Later t shown → t ≤ shown) (sound : Sound s b)
    (remembered : Remembered b id r) (move : Move s thread b after) : Remembered after id r := by
  obtain ⟨stamp, known⟩ := GoMap.mem_iff.mp remembered.created
  have still := move.stamp known
  refine ⟨GoMap.mem_iff.mpr ⟨stamp, still⟩, ?_, fun timedOut => ?_⟩
  · obtain ⟨bound, same, within⟩ := remembered.price
    obtain ⟨later, equal, requirements, _⟩ := move.terms same
    exact ⟨later, equal, by rw [requirements]; exact within⟩
  -- the record stays timed out, or goes when its day is over; stamps stay and the clock goes on
  have stands : (∃ r', after.record id = some r' ∧ r'.phase = .timedOut) ∨ utcDay stamp < utcDay after.clock := by
    obtain ⟨r', found, out⟩ | gone := remembered.timedOut timedOut
    · cases move with
      | materialise other a waiting absent =>
        have different : id ≠ other := by
          rintro rfl
          rw [absent] at found
          cases found
        exact .inl ⟨r', by simpa [Function.update_of_ne different] using found, out⟩
      | advance other r later present advances =>
        by_cases same : id = other
        · subst same
          rw [found] at present
          cases present
          exact .inl ⟨later, Function.update_self .., by rw [(advances.final (by rw [out]; rfl)).1]; exact out⟩
        · exact .inl ⟨r', by simpa [Function.update_of_ne same] using found, out⟩
      | remove other r serial present prunable =>
        by_cases same : id = other
        · subst same
          exact .inr (prunable.later_day forward sound present known)
        · exact .inl ⟨r', by simpa [Function.update_of_ne same] using found, out⟩
      | idle | clock | draw | migrate | grant | retry | prune => exact .inl ⟨r', found, out⟩
    · have day := gone stamp known
      cases move with
      | clock t shown =>
        exact .inr (Int.lt_of_lt_of_le day (Int.ediv_le_ediv (by decide) (forward _ _ (.single shown))))
      | idle | draw | materialise | advance | migrate | grant | retry | prune | remove => exact .inr day
  refine stands.imp_right fun day stamp' known' => ?_
  rw [still] at known'
  cases known'
  exact day

end Later

/-! ## Whole runs -/

/-- What a write left behind: the days it stamped allocations on are within the ceiling
    of the call, and its records are remembered. -/
structure Spent (s : Setting) (w : Cluster) (e : Entry) : Prop where
  within : ∀ id stamp, (e.after.fleet s.name).created.lookup id = some stamp → id ∉ (e.before.fleet s.name).created →
    dailyReserved s.name e.after (utcDay stamp) ≤ (s.config e.thread).budgetDailyMicros
  remembered : ∀ id r, e.after.record id = some r → Remembered (s.books w) id r

/-- Valid configurations with a ceiling; the ceiling is an `int64`. -/
structure Funded (s : Setting) (checks : TextChecks) : Prop where
  valid : ∀ thread, (s.config thread).validate checks = none
  budget : ∀ thread, 0 < (s.config thread).budgetDailyMicros ∧ (s.config thread).budgetDailyMicros < 2 ^ 63

theorem preserved_spent {s : Setting} {checks : TextChecks} (serial : s.Serial)
    (forward : ∀ t shown, s.Later t shown → t ≤ shown) (funded : Funded s checks) :
    Preserved s fun w => Reserved (s.books w) ∧ ∀ e ∈ w.history, Spent s w e := by
  rintro thread w after wellFormed sound ⟨reserved, spent⟩ act
  have priced := fun thread => validate_priced (funded.valid thread)
  have still := reserved.move serial priced (fun thread => (funded.budget thread).1) act.move
  refine ⟨still, fun e member => ?_⟩
  have old (e : Entry) (earlier : e ∈ w.history) : Spent s after e :=
    ⟨(spent e earlier).within, fun id r found => ((spent e earlier).remembered id r found).move forward sound act.move⟩
  obtain ⟨_, same⟩ | logged := act.logged
  · exact old e (same ▸ member)
  rw [logged] at member
  obtain rfl | earlier := List.mem_cons.mp member
  · refine ⟨fun id stamp found new => ?_, fun id r found => .of_record still (act.move.sound sound) found⟩
    exact act.move.within forward priced funded.budget reserved found new
  · exact old e earlier

/-- The ceiling of a day bounds what its allocations can cost at worst, in every run of
    calls one at a time under a clock that does not go back. -/
theorem budget_bounds_spend {s : Setting} {checks : TextChecks} (serial : s.Serial)
    (forward : ∀ t shown, s.clock t shown → t ≤ shown) (funded : Funded s checks)
    {system : System Api Cluster Outcome} (run : s.Run system) :
    (∀ e ∈ system.world.history, ∀ id stamp, (e.after.fleet s.name).created.lookup id = some stamp →
      id ∉ (e.before.fleet s.name).created →
      dailyReserved s.name e.after (utcDay stamp) ≤ (s.config e.thread).budgetDailyMicros) ∧
    (∀ e ∈ system.world.history, ∀ id r, e.after.record id = some r →
      ∃ amount, (system.world.fleet s.name).reserved.lookup id = some amount ∧
        ∀ thread f, (system.world.fleet s.name).bind (s.config thread) = .ok f →
          (r.offering.priceMicros : ℚ) * (s.config thread).maxLifetimeSeconds / 3600 ≤ amount) ∧
    (∀ e ∈ system.world.history, ∀ id r, e.after.record id = some r → r.phase = .timedOut →
      system.world.record id = none → ∀ allocs now, system.world.clock ≤ now →
      counts (system.world.fleet s.name) allocs now id = false) ∧
    ∀ c : Config, c.validate checks = none → 0 ≤ c.budgetDailyMicros ∧ c.budgetDailyMicros < 2 ^ 63 →
      reservationIn checked c.requirements.maxPriceMicros c.maxLifetimeSeconds =
        some (reservationMicros c.requirements.maxPriceMicros c.maxLifetimeSeconds) ∧
      ∀ allocs now,
        spentTodayIn checked (system.world.fleet s.name) allocs now =
          some (spentToday (system.world.fleet s.name) allocs now) ∧
        affordableIn checked c (system.world.fleet s.name) allocs now =
          some (affordable c (system.world.fleet s.name) allocs now) := by
  have safe := run_safe (preserved_spent serial (Setting.Later.le forward) funded) (fun w initial => by
    obtain ⟨fleet, record⟩ := initial.books
    refine ⟨⟨?_, ?_, ?_, ?_, ?_, ?_⟩, ?_⟩
    · exact fun id member => absurd (fleet ▸ member) (AList.notMem_empty id)
    · exact fun id member => absurd (fleet ▸ member) (AList.notMem_empty id)
    · exact fun id a found => by rw [fleet] at found; cases found
    · exact fun id r found => by rw [record id] at found; cases found
    · exact fun bound same => by rw [fleet] at same; cases same
    · rw [fleet]
      exact Nat.zero_le _
    · rw [initial.history]
      exact fun e member => absurd member List.not_mem_nil) run
  obtain ⟨reserved, spent⟩ := safe.invariant.extra
  have summable : Summable (system.world.fleet s.name) := reserved.valued.summable
  refine ⟨fun e member => (spent e member).within, fun e member id r found => ?_,
    fun e member id r found timedOut gone allocs now since => ?_, fun c valid budget => ⟨?_, fun allocs now => ⟨?_, ?_⟩⟩⟩
  · have remembered := (spent e member).remembered id r found
    obtain ⟨bound, same, amount⟩ := reserved.reserved id remembered.created
    refine ⟨_, amount, fun thread f binds => ?_⟩
    obtain ⟨bound', same', within⟩ := remembered.price
    rw [same] at same'
    cases same'
    obtain ⟨requirements, lifetime⟩ := bind_terms binds same
    have priced := reserved.priced bound same
    have covers := reservationMicros_covers priced
    have paid : r.offering.priceMicros * bound.maxLifetimeSeconds ≤
        reservationMicros bound.requirements.maxPriceMicros bound.maxLifetimeSeconds * 3600 :=
      Int.le_trans (Int.mul_le_mul_of_nonneg_right within (Int.le_trans Int.one_nonneg priced.lifetime.1)) covers
    rw [← lifetime, div_le_iff₀ (by norm_num)]
    exact_mod_cast paid
  · have remembered := (spent e member).remembered id r found
    obtain ⟨r', known, _⟩ | day := remembered.timedOut timedOut
    · have gone : (s.books system.world).record id = none := gone
      rw [gone] at known
      cases known
    · unfold counts
      split
      · rfl
      · cases known : (system.world.fleet s.name).created.lookup id with
        | none => rfl
        | some stamp =>
          have before : utcDay stamp < utcDay system.world.clock := day stamp known
          have after : utcDay system.world.clock ≤ utcDay now := Int.ediv_le_ediv (by decide) since
          simp only [Option.any_some, decide_eq_false_iff_not]
          omega
  · have priced := validate_priced valid
    rw [reservationIn_exact checked_exact priced, reservationMicros_eq priced]
    rfl
  · rw [spentTodayIn_exact checked_exact summable, spentToday, spentTodayIn_exact wrapping_exact summable]
    rfl
  · have priced := validate_priced valid
    rw [affordableIn_exact checked_exact summable priced budget, affordable_exact summable priced budget]
    rfl

def lenient : TextChecks := ⟨fun _ => true, fun _ => true, fun _ => true⟩

/-- In the small scale set, whose ceiling affords one allocation a day. -/
theorem budget_bounds_spend_leakyRun :
    Funded leakySetting lenient ∧ leakySetting.Run leakyRun ∧
      ∀ e ∈ leakyRun.world.history, ∀ id stamp, (e.after.fleet leakySetting.name).created.lookup id = some stamp →
        id ∉ (e.before.fleet leakySetting.name).created →
        dailyReserved leakySetting.name e.after (utcDay stamp) ≤ (leakySetting.config e.thread).budgetDailyMicros :=
  have config (thread : Nat) : leakySetting.config thread = smallConfig := by
    change (smallCalls thread).operator.config = smallConfig
    unfold smallCalls
    split <;> rfl
  have funded : Funded leakySetting lenient :=
    ⟨fun thread => by rw [config]; decide +kernel, fun thread => by rw [config]; decide⟩
  have run : leakySetting.Run leakyRun := Setting.played_run _ _ _
  ⟨funded, run, (budget_bounds_spend (fun _ _ overlap => overlap) (fun _ _ since => since) funded run).1⟩

end RunnerScout.Capacity
