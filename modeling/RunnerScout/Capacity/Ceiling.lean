import RunnerScout.Capacity.Budget

/-! # A ceiling set in the middle of a day

The daily ceiling may be changed from one call to the next.  An allocation is given a
reservation only while there is a ceiling, so one admitted before the ceiling was set
does not count towards it on the rest of its day.  Where everything admitted on the day
has its reservation, the ceiling bounds the whole day.
-/

namespace RunnerScout.Capacity

open Interaction Lifecycle Operator State

/-- What the allocations stamped on a day and not timed out cost at worst, reserved or not. -/
def worstCase (c : Config) (f : Fleet) (record : String → Option Allocation) (day : Int) : Int :=
  (f.created.keys.map fun id => if standing f record day id
    then reservationMicros c.requirements.maxPriceMicros c.maxLifetimeSeconds else 0).sum

theorem worstCase_eq (c : Config) (f : Fleet) (record : String → Option Allocation) (day : Int) :
    worstCase c f record day = ((f.created.keys.filter (standing f record day)).length : Int) *
      reservationMicros c.requirements.maxPriceMicros c.maxLifetimeSeconds :=
  sum_constant fun _ _ => rfl

section Moves

variable {s : Setting} {thread : Nat} {b after : Books}

/-- A batch adds reservations of its own terms, or none. -/
theorem Valued.grant (valued : Valued b) {o : Operator} {count : Int} {f f' : Fleet} {allocs : List Allocation}
    {gate : Time} {batch : List Slot} (bound : b.fleet.bind o.config = .ok f)
    (priced : Priced o.config.requirements.maxPriceMicros o.config.maxLifetimeSeconds) (timely : Timely s b gate batch)
    (admits : Admits o count f allocs gate batch f') : Valued { b with fleet := f' } := by
  have before := valued.rebind bound priced
  have same : f.binding = some o.config.binding := by rw [bind_frame bound]
  have binding : f'.binding = some o.config.binding := admits.binding.trans same
  have new {id : String} {v : Int} (member : (id, v) ∈ reservations o batch) :
      id ∈ batch.map Slot.id ∧ v = unitMicros o := by
    unfold reservations at member
    split at member
    · obtain ⟨slot, inside, equal⟩ := List.mem_map.mp member
      cases equal
      exact ⟨List.mem_map_of_mem inside, rfl⟩
    · cases member
  have nodup : ((reservations o batch).map Prod.fst).Nodup := by
    unfold reservations
    split
    · simpa [Function.comp_def] using timely.nodup
    · exact List.nodup_nil
  refine ⟨fun id v found => ⟨o.config.binding, binding, ?_⟩, fun id member => ?_, fun bound equal => ?_, ?_⟩
  · simp only [admits.reserved] at found
    obtain added | ⟨_, old⟩ := GoMap.lookup_insertAll_cases nodup found
    · exact (new added).2
    · obtain ⟨terms, equal, value⟩ := before.value id v old
      rw [same] at equal
      cases equal
      exact value
  · simp only [admits.reserved, admits.created] at member ⊢
    rw [GoMap.mem_insertAll] at member ⊢
    rw [stamps_keys]
    refine member.imp (fun added => ?_) (before.created id)
    obtain ⟨⟨_, v⟩, inside, rfl⟩ := List.mem_map.mp added
    exact (new inside).1
  · have equal : f'.binding = some bound := equal
    rw [binding] at equal
    cases equal
    exact priced
  · simp only [admits.created]
    by_cases none : batch = []
    · subst none
      exact before.retained
    · have room := admits.retention none
      refine keys_insertAll_length.trans ?_
      simpa [stamps] using room

theorem Valued.move
    (priced : ∀ thread, Priced (s.config thread).requirements.maxPriceMicros (s.config thread).maxLifetimeSeconds)
    (valued : Valued b) (move : Move s thread b after) : Valued after := by
  cases move with
  | grant o count f f' allocs gate batch call bound tallied timely admits =>
    have config : s.config thread = o.config := by simp only [Setting.config, call, Call.operator]
    exact valued.grant bound (config ▸ priced thread) timely admits
  | migrate f pending bound | retry f used reruns bound | prune f ids serial bound =>
    exact { valued.rebind bound (priced thread) with }
  | idle | clock | draw | materialise | advance | remove => exact { valued with }

/-- What a call with a ceiling stamps stays under it, on a day on which everything stamped
    before has its reservation. -/
theorem Move.underCeiling (forward : ∀ t shown, s.Later t shown → t ≤ shown)
    (priced : ∀ thread, Priced (s.config thread).requirements.maxPriceMicros (s.config thread).maxLifetimeSeconds)
    (ceiling : 0 < (s.config thread).budgetDailyMicros ∧ (s.config thread).budgetDailyMicros < 2 ^ 63)
    (valued : Valued b) (move : Move s thread b after) {id : String} {stamp : Time}
    (found : after.fleet.created.lookup id = some stamp) (new : id ∉ b.fleet.created)
    (covered : ∀ other former, b.fleet.created.lookup other = some former → utcDay former = utcDay stamp →
      other ∈ b.fleet.reserved) :
    worstCase (s.config thread) after.fleet after.record (utcDay stamp) ≤ (s.config thread).budgetDailyMicros := by
  obtain ⟨o, count, f, allocs, gate, batch, config, bound, tallied, timely, admits, records⟩ := move.grants found new
  rw [config] at ceiling ⊢
  rw [records, worstCase_eq]
  exact valued.within forward bound (config ▸ priced thread) ceiling tallied timely admits found new covered

end Moves

/-! ## Whole runs -/

/-- The allocations a write stamps on a day leave that day under the ceiling of the call,
    if there is one and everything stamped on the day before has its reservation. -/
def UnderCeiling (s : Setting) (e : Entry) : Prop :=
  0 < (s.config e.thread).budgetDailyMicros → ∀ id stamp, (e.after.fleet s.name).created.lookup id = some stamp →
    id ∉ (e.before.fleet s.name).created →
    (∀ other former, (e.before.fleet s.name).created.lookup other = some former → utcDay former = utcDay stamp →
      other ∈ (e.before.fleet s.name).reserved) →
    worstCase (s.config e.thread) (e.after.fleet s.name) e.after.record (utcDay stamp) ≤
      (s.config e.thread).budgetDailyMicros

section Runs

variable {s : Setting}

theorem preserved_underCeiling (forward : ∀ t shown, s.Later t shown → t ≤ shown)
    (priced : ∀ thread, Priced (s.config thread).requirements.maxPriceMicros (s.config thread).maxLifetimeSeconds)
    (ceilings : ∀ thread, (s.config thread).budgetDailyMicros < 2 ^ 63) :
    Preserved s fun w => Valued (s.books w) ∧ ∀ e ∈ w.history, UnderCeiling s e := by
  rintro thread w after wellFormed sound ⟨valued, under⟩ act
  refine ⟨valued.move priced act.move, fun e member => ?_⟩
  obtain ⟨_, same⟩ | logged := act.logged
  · exact under e (same ▸ member)
  rw [logged] at member
  obtain rfl | earlier := List.mem_cons.mp member
  · intro positive id stamp found new covered
    exact act.move.underCeiling forward priced ⟨positive, ceilings thread⟩ valued found new covered
  · exact under e earlier

/-- Under a clock that does not go back and valid configurations, with a ceiling or
    without: a call with a ceiling that finds a reservation for everything admitted on a day
    leaves what that day can cost at worst under its ceiling. -/
theorem enabled_ceiling_counts_day {checks : TextChecks} (forward : ∀ t shown, s.clock t shown → t ≤ shown)
    (valid : ∀ thread, (s.config thread).validate checks = none)
    (ceilings : ∀ thread, (s.config thread).budgetDailyMicros < 2 ^ 63) {system : System Api Cluster Outcome}
    (run : s.Run system) : ∀ e ∈ system.world.history, UnderCeiling s e := by
  have safe := run_safe (preserved_underCeiling (Setting.Later.le forward) (fun thread => validate_priced (valid thread)) ceilings)
    (fun w initial => by
      obtain ⟨fleet, _⟩ := initial.books
      refine ⟨⟨?_, ?_, ?_, ?_⟩, ?_⟩
      · exact fun id v found => by rw [fleet] at found; cases found
      · exact fun id member => absurd (fleet ▸ member) (AList.notMem_empty id)
      · exact fun bound same => by rw [fleet] at same; cases same
      · rw [fleet]
        exact Nat.zero_le _
      · rw [initial.history]
        exact fun e member => absurd member List.not_mem_nil) run
  exact safe.invariant.extra.2

end Runs

/-! ### A ceiling of one allocation -/

/-- The small scale set without a ceiling. -/
def freeOperator : Operator := { config := { smallConfig with budgetDailyMicros := 0 } }

/-- The same scale set with two runners and a ceiling of one allocation a day. -/
def cappedOperator (observedAt : Time) : Operator where
  config := { smallConfig with
    maxRunners := 2
    catalog := { smallConfig.catalog with
      offerings := smallConfig.catalog.offerings.map fun x => { x with observedAt := observedAt } } }

/-- One runner is wanted before the ceiling is set, two after it. -/
def cappedCalls (observedAt : Time) : Nat → Call
  | 0 => .desiredRunnerCount freeOperator 1
  | _ => .desiredRunnerCount (cappedOperator observedAt) 2

def cappedSetting (observedAt : Time) : Setting :=
  Setting.alone "ci" (cappedCalls observedAt) fun thread => by unfold cappedCalls; split <;> rfl

def cappedRun (observedAt : Time) : System Api Cluster Outcome :=
  (cappedSetting observedAt).played
    (Setting.plain _ (fun thread t => max t (if thread = 0 then 2 * second else observedAt + second))
      (fun _ t => le_max_left t _) false fun removes => Bool.noConfusion removes)
    [(0, 100), (1, 100)]

/-- The ceiling is set on the next day. -/
theorem enabled_ceiling_counts_day_nextDay :
    (cappedSetting (24 * hour)).Run (cappedRun (24 * hour)) ∧
      ((cappedRun (24 * hour)).world.fleet "ci").created.keys.length = 2 ∧
      ∀ e ∈ (cappedRun (24 * hour)).world.history, UnderCeiling (cappedSetting (24 * hour)) e := by
  have valid (thread : Nat) : ((cappedSetting (24 * hour)).config thread).validate lenient = none ∧
      ((cappedSetting (24 * hour)).config thread).budgetDailyMicros < 2 ^ 63 := by
    change ((cappedCalls (24 * hour) thread).operator.config).validate lenient = none ∧
      (cappedCalls (24 * hour) thread).operator.config.budgetDailyMicros < 2 ^ 63
    unfold cappedCalls
    split <;> exact ⟨by decide +kernel, by decide⟩
  have run : (cappedSetting (24 * hour)).Run (cappedRun (24 * hour)) := Setting.played_run _ _ _
  exact ⟨run, by decide +kernel, enabled_ceiling_counts_day (fun _ _ since => since) (fun thread => (valid thread).1)
    (fun thread => (valid thread).2) run⟩

/-- Set on the same day, the ceiling does not count the allocation admitted before it. -/
theorem enabled_ceiling_forgets :
    (cappedSetting second).Run (cappedRun second) ∧
      ∃ e ∈ (cappedRun second).world.history, 0 < ((cappedSetting second).config e.thread).budgetDailyMicros ∧
        (e.before.fleet "ci").created.keys.length = 1 ∧ (e.after.fleet "ci").created.keys.length = 2 ∧
        ((cappedSetting second).config e.thread).budgetDailyMicros <
          worstCase ((cappedSetting second).config e.thread) (e.after.fleet "ci") e.after.record 0 :=
  ⟨Setting.played_run _ _ _, by decide +kernel⟩

end RunnerScout.Capacity
