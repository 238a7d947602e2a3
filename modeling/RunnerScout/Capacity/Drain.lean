import RunnerScout.Capacity.Slots

/-! # Nothing is lost, nothing comes back

Every allocation is pending, recorded or pruned, in the order the writes are made
in: a record is stored before its pending entry goes, and a mark is stored before
the record it stands for goes.  So `Drained` can decide from what is left, and what
it decides is exact.
-/

namespace RunnerScout.Capacity

open Interaction Lifecycle Operator State

section Moves

variable {s : Setting} {thread : Nat} {b after : Books} {id : String}

/-- Only what has a terminal record is marked as pruned. -/
theorem Move.marked (move : Move s thread b after) (mark : after.fleet.isPruned id = true) :
    b.fleet.isPruned id = true ∨ ∃ r, b.record id = some r ∧ r.phase.terminal = true := by
  cases move with
  | prune f ids serial bound due =>
    rw [isPruned_insertAll, bind_frame bound] at mark
    obtain new | old := mark
    · obtain ⟨_, r, found, prunable⟩ := due id new
      exact .inr ⟨r, found, prunable.terminal⟩
    · exact .inl old
  | grant o count f f' allocs gate batch call bound tallied timely admits =>
    rw [(grows_grant (s := s) bound timely admits).pruned id] at mark
    exact .inl mark
  | migrate f pending bound | retry f used reruns bound =>
    rw [bind_frame bound] at mark
    exact .inl mark
  | idle | clock | draw | materialise | advance | remove => exact .inl mark

theorem Move.still_marked (move : Move s thread b after) (mark : b.fleet.isPruned id = true) :
    after.fleet.isPruned id = true := by
  cases move with
  | prune f ids serial bound due =>
    rw [isPruned_insertAll, bind_frame bound]
    exact .inr mark
  | grant o count f f' allocs gate batch call bound tallied timely admits =>
    rw [(grows_grant (s := s) bound timely admits).pruned id]
    exact mark
  | migrate f pending bound | retry f used reruns bound =>
    rw [bind_frame bound]
    exact mark
  | idle | clock | draw | materialise | advance | remove => exact mark

/-- A record goes only once its mark is stored. -/
theorem Move.gone_marked (move : Move s thread b after) (present : b.record id ≠ none)
    (gone : after.record id = none) : after.fleet.isPruned id = true := by
  cases move with
  | remove other r serial found prunable marked =>
    by_cases same : id = other
    · exact same ▸ marked
    · exact absurd (by simpa [Function.update_of_ne same] using gone) present
  | materialise other a | advance other r a =>
    by_cases same : id = other
    · subst same
      simp at gone
    · exact absurd (by simpa [Function.update_of_ne same] using gone) present
  | idle | clock | draw | migrate | grant | retry | prune => exact absurd gone present

/-- What is marked and gone does not come back: it is not pending any more. -/
theorem Move.still_gone (sound : Sound s b) (move : Move s thread b after) (mark : b.fleet.isPruned id = true)
    (gone : b.record id = none) : after.record id = none := by
  cases move with
  | materialise other a waiting =>
    have different : id ≠ other := by
      rintro rfl
      exact (sound.prunedCreated id mark).2 waiting
    simpa [Function.update_of_ne different] using gone
  | advance other r a found =>
    have different : id ≠ other := by
      rintro rfl
      rw [found] at gone
      cases gone
    simpa [Function.update_of_ne different] using gone
  | remove other =>
    by_cases same : id = other
    · subst same
      simp
    · simpa [Function.update_of_ne same] using gone
  | idle | clock | draw | migrate | grant | retry | prune => exact gone

end Moves

/-- The write took the record of an allocation away. -/
def Entry.removed (e : Entry) (id : String) : Prop := e.before.record id ≠ none ∧ e.after.record id = none

/-- The record of an allocation was stored in a terminal phase. -/
def Ended (history : List Entry) (id : String) : Prop :=
  ∃ e ∈ history, ∃ r, e.after.record id = some r ∧ r.phase.terminal = true

/-- What the history of the writes says about the books. -/
structure Kept (s : Setting) (w : Cluster) : Prop where
  stored : ∀ id r, (s.books w).record id = some r → ∃ e ∈ w.history, e.after.record id = some r
  marked : ∀ id, (s.books w).fleet.isPruned id = true → Ended w.history id
  removed : ∀ e ∈ w.history, ∀ id, e.removed id → (s.books w).fleet.isPruned id = true ∧ (s.books w).record id = none
  ordered : w.history.Pairwise fun later earlier => ∀ id, earlier.removed id → later.after.record id = none
  admitted : ∀ e ∈ w.history, ∀ id ∈ (e.after.fleet s.name).created, id ∈ (s.books w).fleet.created

theorem Ended.mono {first second : List Entry} {id : String} (ended : Ended first id) (inside : first ⊆ second) :
    Ended second id := by
  obtain ⟨e, member, facts⟩ := ended
  exact ⟨e, inside member, facts⟩

theorem preserved_kept (s : Setting) : Preserved s (Kept s) := by
  intro thread w after wellFormed sound kept act
  have move := act.move
  have created (id : String) (member : id ∈ (s.books w).fleet.created) : id ∈ (s.books after).fleet.created := by
    obtain ⟨stamp, found⟩ := GoMap.mem_iff.mp member
    exact GoMap.mem_iff.mpr ⟨stamp, move.stamp found⟩
  have removed (e : Entry) (member : e ∈ w.history) (id : String) (gone : e.removed id) :
      (s.books after).fleet.isPruned id = true ∧ (s.books after).record id = none := by
    obtain ⟨mark, none⟩ := kept.removed e member id gone
    exact ⟨move.still_marked mark, move.still_gone sound mark none⟩
  have marked (id : String) (mark : (s.books after).fleet.isPruned id = true) : Ended w.history id := by
    obtain old | ⟨r, found, terminal⟩ := move.marked mark
    · exact kept.marked id old
    · obtain ⟨e, member, same⟩ := kept.stored id r found
      exact ⟨e, member, r, same, terminal⟩
  obtain ⟨maps, history⟩ | logged := act.logged
  · -- the write did not reach the maps, so their history stands
    refine ⟨fun id r found => ?_, ?_, ?_, ?_, ?_⟩
    · have same : (s.books after).record id = (s.books w).record id := congrArg (Maps.record · id) maps
      rw [same] at found
      rw [history]
      exact kept.stored id r found
    · rw [history]
      exact marked
    · rw [history]
      exact removed
    · rw [history]
      exact kept.ordered
    · rw [history]
      exact fun e member id inside => created id (kept.admitted e member id inside)
  · have older : w.history ⊆ after.history := by
      rw [logged]
      exact List.subset_cons_self _ _
    refine ⟨fun id r found => ?_, fun id mark => (marked id mark).mono older, ?_, ?_, ?_⟩
    · rw [logged]
      exact ⟨_, List.mem_cons_self, found⟩
    · rw [logged]
      intro e member id gone
      obtain rfl | earlier := List.mem_cons.mp member
      · exact ⟨move.gone_marked gone.1 gone.2, gone.2⟩
      · exact removed e earlier id gone
    · rw [logged]
      exact List.pairwise_cons.mpr ⟨fun e member id gone => (removed e member id gone).2, kept.ordered⟩
    · rw [logged]
      intro e member id inside
      obtain rfl | earlier := List.mem_cons.mp member
      · exact inside
      · exact created id (kept.admitted e earlier id inside)

/-- With nothing pending and every record terminal, everything ever admitted has ended. -/
theorem Kept.ended {s : Setting} {w : Cluster} (kept : Kept s w) (sound : Sound s (s.books w))
    (finished : Finished (s.books w)) {e : Entry} (member : e ∈ w.history) {id : String}
    (admitted : id ∈ (e.after.fleet s.name).created) : Ended w.history id := by
  obtain waiting | present | mark := sound.accounted id (kept.admitted e member id admitted)
  · exact absurd waiting (finished.1 id)
  · obtain ⟨r, found⟩ := Option.ne_none_iff_exists'.mp present
    obtain ⟨e, member, same⟩ := kept.stored id r found
    exact ⟨e, member, r, same, finished.2 id r found⟩
  · exact kept.marked id mark

/-- No allocation is lost or revived, and `Drained` is exact: what it returned is true,
    and with reads that succeed it returns. -/
theorem drained_exact {s : Setting} (serial : s.Serial) {system : System Api Cluster Outcome} (run : s.Run system) :
    (∀ id ∈ (system.world.fleet s.name).created, id ∈ (system.world.fleet s.name).pending ∨
      system.world.record id ≠ none ∨ (system.world.fleet s.name).isPruned id = true) ∧
    (∀ id, system.world.record id ≠ none → id ∈ (system.world.fleet s.name).created) ∧
    (∀ id, (system.world.fleet s.name).isPruned id = true → Ended system.world.history id) ∧
    (∀ e ∈ system.world.history, ∀ id, e.removed id → system.world.record id = none) ∧
    (system.world.history.Pairwise fun later earlier => ∀ id, earlier.removed id → later.after.record id = none) ∧
    (∀ thread empty, system.threads thread = some (.done (.drained empty none)) →
      (empty = true ↔ Finished (s.books system.world)) ∧
      (empty = true → ∀ e ∈ system.world.history, ∀ id ∈ (e.after.fleet s.name).created,
        Ended system.world.history id)) ∧
    ∀ thread f, (system.world.fleet s.name).bind (s.config thread) = .ok f →
      (s.calls thread).operator.drained.wp reading
        (fun result after => after = system.world ∧ result.2 = none ∧
          (result.1 = true ↔ Finished (s.books system.world))) system.world := by
  have safe := run_safe (preserved_kept s) (fun w initial => by
    obtain ⟨fleet, record⟩ := initial.books
    refine ⟨?_, ?_, ?_, ?_, ?_⟩
    · exact fun id r found => by rw [record id] at found; cases found
    · exact fun id mark => by rw [fleet] at mark; cases mark
    · rw [initial.history]
      exact fun e member => absurd member List.not_mem_nil
    · rw [initial.history]
      exact List.Pairwise.nil
    · rw [initial.history]
      exact fun e member => absurd member List.not_mem_nil) run
  have sound := safe.invariant.sound
  have kept := safe.invariant.extra
  refine ⟨sound.accounted, sound.recordCreated, kept.marked, fun e member id gone => (kept.removed e member id gone).2,
    kept.ordered, fun thread empty ended => ?_, fun thread f bound => ?_⟩
  · have exact : empty = true ↔ Finished (s.books system.world) := safe.result ended serial rfl
    exact ⟨exact, fun all e member id admitted => kept.ended sound (exact.mp all) member admitted⟩
  · exact drained_reads safe.invariant (s.named thread) bound

/-- In the small scale set, where a record is pruned. -/
theorem drained_exact_leakyRun :
    leakySetting.Serial ∧ leakySetting.Run leakyRun ∧
      ∀ id, (leakyRun.world.fleet leakySetting.name).isPruned id = true → Ended leakyRun.world.history id :=
  have serial : leakySetting.Serial := fun _ _ overlap => overlap
  have run : leakySetting.Run leakyRun := Setting.played_run _ _ _
  ⟨serial, run, (drained_exact serial run).2.2.1⟩

end RunnerScout.Capacity
