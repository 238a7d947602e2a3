import RunnerScout.Capacity.Admission

/-! # `Tick` as moves

The parts of one reconciliation cycle that write the fleet: pending admissions are
dropped once their records exist, a retry pass saves its own maps, and pruning marks
records before it removes them.  Everything in between only adds to the books.
-/

namespace RunnerScout.Capacity

open Interaction Lifecycle Operator State

/-! ## Pending admissions -/

/-- What the loop over the pending admissions knows: the fleet it read, that its
    entries are admitted and not pruned, and that it is alone with the fleet unless the
    run is short. -/
structure Awaited (s : Setting) (cm : ConfigMap) (f : Fleet) (w : Cluster) : Prop where
  held : Held s cm w
  created : ∀ id ∈ f.pending, id ∈ (s.books w).fleet.created
  unpruned : ∀ id ∈ f.pending, (s.books w).fleet.isPruned id = false
  alone : s.Serial → w.maps.lookup (fleetName s.name) = some cm

/-- The pending admissions among `ids` have their records. -/
def Recorded (s : Setting) (f : Fleet) (ids : String → Prop) (w : Cluster) : Prop :=
  ∀ id ∈ f.pending, ids id → (s.books w).record id ≠ none

section Migrate

variable {s : Setting} {J : Cluster → Prop} {thread : Nat} {o : Operator} {cm : ConfigMap} {f : Fleet}

theorem awaited_stable : (s.rely J).Stable thread (Awaited s cm f) := by
  rintro w after _ ⟨evolves, grows, quiet⟩ awaited
  refine ⟨awaited.held.grows evolves grows, fun id member => grows.mem_created (awaited.created id member),
    fun id member => ?_, fun serial => ?_⟩
  · rw [grows.pruned]
    exact awaited.unpruned id member
  · rw [quiet serial]
    exact awaited.alone serial

theorem Recorded.grows {ids : String → Prop} {w after : Cluster} (recorded : Recorded s f ids w)
    (grows : Grows s (s.books w) (s.books after)) : Recorded s f ids after := by
  intro id member inside
  obtain ⟨r, found⟩ := Option.ne_none_iff_exists'.mp (recorded id member inside)
  obtain ⟨later, known, _⟩ := grows.records id r found
  rw [known]
  exact Option.some_ne_none _

theorem recorded_stable {ids : String → Prop} : (s.rely J).Stable thread (Recorded s f ids) :=
  fun _ _ _ relied recorded => recorded.grows relied.2.1

/-- An entry of the fleet that was read, about to be recorded. -/
theorem create_awaited (preserved : Preserved s J) (own : o.config.name = s.name)
    (bound : (fleetOf cm).bind o.config = .ok f) {ids : String → Prop} {id : String} {a x : Allocation}
    (entry : f.pending.lookup id = some a) (fresh : Fresh id x) (takesOver : TakesOver a x) :
    s.Triple J thread
      (fun w => s.Invariant J w ∧ Awaited s cm f w ∧ Recorded s f ids w) (o.store.save x 0)
      fun reply w => s.Invariant J w ∧ Awaited s cm f w ∧ Recorded s f ids w ∧
        (Taken reply → (s.books w).record id ≠ none) := by
  have member : id ∈ f.pending := GoMap.mem_iff.mpr ⟨a, entry⟩
  have named : x.id = id := fresh.named
  have frame := bind_frame bound
  refine create_triple own (awaited_stable.and recorded_stable) ?_ ?_
  · rintro e w kept ⟨awaited, recorded⟩ taken
    refine ⟨kept, awaited, recorded, ?_⟩
    rintro (⟨stored, same⟩ | ⟨e', same, conflict⟩)
    · cases same
    · cases same
      have notFleet := kept.sound.named id (kept.sound.drawn id (awaited.created id member))
      exact record_isSome_of_lookup kept.wellFormed notFleet (named ▸ taken conflict)
  · rintro w stored after kept ⟨awaited, recorded⟩ created
    have absent : (s.books w).record id = none := by
      have free := created.1
      rw [named] at free
      simp only [Setting.books, World.record, Maps.record, free, Option.bind_none]
    have waiting : id ∈ (s.books w).fleet.pending := by
      obtain waiting | present | marked := kept.sound.accounted id (awaited.created id member)
      · exact waiting
      · exact absurd absent present
      · rw [awaited.unpruned id member] at marked
        cases marked
    obtain ⟨act, grows⟩ := act_created kept.sound created (named ▸ waiting) (named ▸ fresh) fun serial => by
      refine ⟨a, ?_, takesOver⟩
      rw [books_fleet (awaited.alone serial), named]
      rw [frame] at entry
      exact entry
    obtain ⟨invariant, others⟩ := act.keeps preserved kept
    have stored_id : stored.id = id := by rw [created.2.1]; exact named
    have record : (s.books after).record id ≠ none := by
      obtain ⟨_, _, _, canonical, rfl⟩ := created
      have := @putRecord_record stored _ s.rules thread w canonical
      rw [show (s.books (putRecord s.rules thread w stored)).record = _ from this, stored_id, Function.update_self]
      exact Option.some_ne_none _
    have still : Awaited s cm f after := by
      refine ⟨awaited.held.grows act.evolves grows, fun other inside => grows.mem_created (awaited.created other inside),
        fun other inside => ?_, fun serial => ?_⟩
      · rw [grows.pruned]
        exact awaited.unpruned other inside
      · have notFleet : stored.id ≠ fleetName s.name :=
          stored_id ▸ kept.sound.named id (kept.sound.drawn id (awaited.created id member))
        obtain ⟨_, _, _, _, rfl⟩ := created
        exact (AList.lookup_insert_ne (Ne.symm notFleet)).trans (awaited.alone serial)
    exact ⟨⟨invariant, others⟩, ⟨invariant, still, recorded.grows grows, fun _ => record⟩,
      fun e => ⟨invariant, still, recorded.grows grows, fun _ => record⟩⟩

/-- The loop leaves behind only entries it has not come to. -/
theorem migrate_triple (preserved : Preserved s J) (own : o.config.name = s.name)
    (bound : (fleetOf cm).bind o.config = .ok f) (fresh : ∀ id a, f.pending.lookup id = some a → Fresh id a)
    (order : List String) :
    s.Triple J thread (fun w => s.Invariant J w ∧ Awaited s cm f w) (o.migrate order f)
      fun reply w => ∀ f', reply = .ok f' → ∃ left, f' = { f with pending := left } ∧
        (∀ id a, left.lookup id = some a → f.pending.lookup id = some a) ∧ (∀ id ∈ order, id ∉ left) ∧
        Awaited s cm f w ∧ Recorded s f (· ∉ left) w := by
  let entries (pending : GoMap String Allocation) (w : Cluster) : Prop :=
    (∀ id a, pending.lookup id = some a → f.pending.lookup id = some a) ∧
      s.Invariant J w ∧ Awaited s cm f w ∧ Recorded s f (· ∉ pending) w
  have creates (pending : GoMap String Allocation) (id : String) (a : Allocation)
      (entry : pending.lookup id = some a) : s.Triple J thread (entries pending)
        (o.store.save (if o.draining then { a with retire := true } else a) 0)
        fun reply w => Taken reply → entries (pending.erase id) w := by
    refine .given (fun w holds => holds.1) fun kept => ?_
    have entryFresh := fresh id a (kept id a entry)
    -- a draining process retires what it records
    generalize content : (if o.draining = true then { a with retire := true } else a) = x
    have xFresh : Fresh id x := by
      subst content
      split
      · exact ⟨entryFresh.named, entryFresh.phase, entryFresh.terminalAt, entryFresh.offering, entryFresh.rejectedAt⟩
      · exact entryFresh
    have takesOver : TakesOver a x := by
      subst content
      split <;> exact ⟨rfl, rfl, rfl⟩
    refine ((create_awaited preserved own bound (kept id a entry) xFresh takesOver).mono ?_).pre_mono
      fun w holds => holds.2
    rintro reply w ⟨invariant, awaited, recorded, record⟩ taken
    refine ⟨fun other b found => kept other b (GoMap.lookup_erase_eq_some.mp found).2, invariant, awaited, ?_⟩
    intro other member gone
    by_cases same : other = id
    · exact same ▸ record taken
    · exact recorded other member fun still => gone (AList.mem_erase.mpr ⟨same, still⟩)
  refine ((migrate_rule creates order f).mono fun reply w all f' same => ?_).pre_mono fun w ⟨kept, awaited⟩ =>
    ⟨fun _ _ found => found, kept, awaited, fun id member gone => absurd member gone⟩
  obtain ⟨left, content, inside, passed, _, _, awaited, recorded⟩ := all f' same
  exact ⟨left, content, inside, passed, awaited, recorded⟩

/-- The save after the loop. -/
theorem saveFleet_migrated (preserved : Preserved s J) (config : o.config = s.config thread)
    (bound : (fleetOf cm).bind o.config = .ok f) {left : GoMap String Allocation}
    (kept : ∀ id a, left.lookup id = some a → f.pending.lookup id = some a) (empty : ∀ id, id ∉ left) :
    s.Triple J thread
      (fun w => Awaited s cm f w ∧ Recorded s f (· ∉ left) w) (saveFleet cm { f with pending := left })
      fun failed w => failed = none → s.Serial → ∀ id, id ∉ (s.books w).fleet.pending := by
  refine saveFleet_move preserved (awaited_stable.and recorded_stable) (fun w holds => holds.1.held)
    (fun e w _ _ same => by cases same) ?_
  rintro w keptHere ⟨awaited, recorded⟩ found
  have frame := bind_frame bound
  have stored := books_fleet found
  have pending : f.pending = (s.books w).fleet.pending := by rw [frame, stored]
  rw [config, ← stored] at bound
  refine ⟨.migrate f left bound (fun id a inside => pending ▸ kept id a inside)
    (fun id member gone => recorded id (pending ▸ member) gone), fun after _ _ same e _ _ id => ?_⟩
  rw [same]
  exact empty id

end Migrate

/-! ## Retries -/

section Retries

variable {s : Setting} {J : Cluster → Prop} {thread : Nat} {o : Operator} {pre : Cluster → Prop}

/-- A retry pass keeps whatever growth keeps. -/
theorem retries (preserved : Preserved s J) (config : o.config = s.config thread)
    (stable : (s.workers J).Stable thread pre) : Retries s.rules (s.rely J) thread o pre := by
  have own : o.config.name = s.name := config ▸ s.named thread
  have grown {w after : Cluster} (kept : s.Invariant J w) (holds : pre w) (act : Act s thread w after)
      (grows : Grows s (s.books w) (s.books after)) : Keeps (s.rely J) thread w after ∧ Evolves w after ∧ pre after :=
    have keeps := act.keeps preserved kept
    ⟨keeps, act.evolves, stable w after keeps.1 ⟨act.evolves, grows⟩ holds⟩
  refine ⟨rely_respects, own, stable_of_workers stable, ?asks, ?opens, ?saves, ?fleet⟩
  case asks =>
    intro request w reply after asked kept holds executed
    obtain rfl : after = w := by
      cases request with
      | attemptJobs | rerunFailedJobs | note =>
        obtain ⟨_, rfl, rfl⟩ := executed
        rfl
      | _ => exact asked.elim
    exact ⟨⟨kept, fun other _ => (s.rely J).refl other after⟩, .refl after, holds⟩
  case opens =>
    intro w after kept holds opened
    obtain ⟨act, same⟩ := act_opened kept.wellFormed opened
    obtain ⟨keeps, _, still⟩ := grown kept holds act (same ▸ .refl _)
    exact ⟨keeps, still⟩
  case saves =>
    intro a x w stored after _ same kept holds seen saved
    have edited : x.id = a.id ∧ Advances a x ∧ x.terminalAt = a.terminalAt ∧ x.rejectedAt = a.rejectedAt ∧
        x.phase = a.phase := by
      obtain rfl | rfl := same
      · exact ⟨rfl, .refl _, rfl, rfl, rfl⟩
      · exact ⟨rfl, ⟨rfl, rfl, fun _ => ⟨rfl, rfl⟩, .inl rfl, rfl, rfl, .same rfl rfl⟩, rfl, rfl, rfl⟩
    obtain ⟨named, advances, terminalAt, rejectedAt, phase⟩ := edited
    have content : Saved x stored := by
      obtain ⟨_, _, stores, _⟩ := saved
      exact stores.saved
    obtain ⟨act, grows⟩ := act_saved kept.wellFormed saved seen named rfl (advances.saved content)
      (.inl (by rw [content]; exact terminalAt)) (by rw [content]; exact .same rejectedAt phase)
    exact grown kept holds act grows
  case fleet =>
    intro cm f f' w after bound retried kept holds saved
    obtain ⟨used, reruns, rfl⟩ := retried
    rw [config, ← books_fleet saved.1] at bound
    obtain ⟨act, same⟩ := act_fleetSaved kept.wellFormed saved (.retry f used reruns bound)
    obtain ⟨keeps, _, still⟩ := grown kept holds act (same ▸ grows_retry bound)
    exact ⟨keeps, still⟩

end Retries

/-! ## Pruning -/

/-- The listing of a cycle, some time later.  Where calls do not overlap, nothing in it
    is pending any more. -/
structure Watched (s : Setting) (allocs : List Allocation) (w : Cluster) : Prop where
  created : ∀ a ∈ allocs, a.id ∈ (s.books w).fleet.created
  settled : s.Serial → ∀ a ∈ allocs, a.id ∉ (s.books w).fleet.pending
  records : ∀ a ∈ allocs, ∃ r, (s.books w).record a.id = some r ∧ Advances a r

/-- The listed allocations found to be past their retention. -/
def Due (s : Setting) (f : Fleet) (allocs : List Allocation) (ids : List String) (w : Cluster) : Prop :=
  ∀ id ∈ ids, ∃ a ∈ allocs, a.id = id ∧ a.terminalAt ≠ 0 ∧
    (∃ now, s.Shown now ∧ s.Later now w.clock ∧ terminalRetention ≤ now - a.terminalAt) ∧
    (a.phase = .timedOut ∨ (a.phase = .deleted ∧ f.isReleased a.id = true))

/-- The marked records, about to be removed. -/
def Marked (s : Setting) (ids : List String) (w : Cluster) : Prop :=
  s.Serial ∧ ∀ id ∈ ids, (s.books w).fleet.isPruned id = true ∧
    ∀ r, (s.books w).record id = some r → Prunable s (s.books w) id r

section Prune

variable {s : Setting} {J : Cluster → Prop} {thread : Nat} {o : Operator} {pre : Cluster → Prop}
  {allocs : List Allocation} {f : Fleet} {ids : List String}

theorem watched_stable : (s.workers J).Stable thread (Watched s allocs) := by
  rintro w after _ ⟨_, grows⟩ watched
  refine ⟨fun a member => grows.mem_created (watched.created a member), fun serial a member waiting => ?_,
    fun a member => ?_⟩
  · exact watched.settled serial a member (grows.pending a.id (watched.created a member) waiting)
  · obtain ⟨r, found, advances⟩ := watched.records a member
    obtain ⟨later, known, more⟩ := grows.records a.id r found
    exact ⟨later, known, advances.trans more⟩

theorem due_stable : (s.workers J).Stable thread (Due s f allocs ids) := by
  intro w after _ relied due id member
  obtain ⟨a, inside, named, stopped, ⟨now, shown, past, old⟩, released⟩ := due id member
  exact ⟨a, inside, named, stopped, ⟨now, shown, past.trans relied.2.clock, old⟩, released⟩

theorem marked_stable : (s.rely J).Stable thread (Marked s ids) := by
  rintro w after _ ⟨_, _, quiet⟩ ⟨serial, marked⟩
  rw [quiet serial]
  exact ⟨serial, marked⟩

theorem markPruned_triple (preserved : Preserved s J) (stable : (s.workers J).Stable thread pre)
    (allocs : List Allocation) (f : Fleet) :
    s.WorkerTriple J thread pre (markPruned allocs f) fun result w =>
      pre w ∧ result.1 = { f with pruned := GoMap.insertAll (result.2.1.map fun id => (id, true)) f.pruned } ∧
        Due s f allocs result.2.1 w := by
  induction allocs generalizing f pre with
  | nil => exact .done fun w holds => ⟨holds, rfl, fun _ member => (List.not_mem_nil member).elim⟩
  | cons a rest ih =>
    have wider {ids : List String} {w : Cluster} (due : Due s f rest ids w) : Due s f (a :: rest) ids w := by
      intro id member
      obtain ⟨b, inside, facts⟩ := due id member
      exact ⟨b, List.mem_cons_of_mem _ inside, facts⟩
    have skip : s.WorkerTriple J thread pre (markPruned rest f) fun result w =>
        pre w ∧ result.1 = { f with pruned := GoMap.insertAll (result.2.1.map fun id => (id, true)) f.pruned } ∧
          Due s f (a :: rest) result.2.1 w :=
      (ih stable f).mono fun result w ⟨holds, same, due⟩ => ⟨holds, same, wider due⟩
    unfold markPruned
    split
    · exact skip
    rename_i stopped
    refine .bind (now_triple preserved stable) fun now => ?_
    split
    · exact skip.pre_mono fun w ⟨_, holds, _⟩ => holds
    rename_i old
    split
    · exact skip.pre_mono fun w ⟨_, holds, _⟩ => holds
    rename_i phase
    -- the instant just read stays in the past
    have read : (s.workers J).Stable thread fun w => pre w ∧ s.Shown now ∧ s.Later now w.clock :=
      stable.and fun _ _ _ relied ⟨shown, past⟩ => ⟨shown, past.trans relied.2.clock⟩
    have deregister : s.WorkerTriple J thread
        (fun w => pre w ∧ s.Shown now ∧ s.Later now w.clock) (Program.ask (S := Api) (.deregisterRunner a.id))
        fun _ w => pre w ∧ s.Shown now ∧ s.Later now w.clock := ask_outside read fun _ _ _ executed => executed
    refine .bind (deregister.pre_mono fun w ⟨_, holds, clock, shown⟩ => ⟨holds, shown, clock ▸ .refl⟩) fun failed => ?_
    cases failed with
    | some e =>
      exact .bind (skip.pre_mono fun w ⟨holds, _⟩ => holds) fun result => .done fun w holds => holds
    | none =>
      refine .bind (ih read { f with pruned := f.pruned.insert a.id true }) fun result => .done ?_
      obtain ⟨f', ids, failures⟩ := result
      rintro w ⟨⟨holds, shown, past⟩, same, due⟩
      refine ⟨holds, same, fun id member => ?_⟩
      obtain rfl | later := List.mem_cons.mp member
      · refine ⟨a, List.mem_cons_self, rfl, stopped, ⟨now, shown, past, Int.not_lt.mp old⟩, ?_⟩
        by_cases timedOut : a.phase = .timedOut
        · exact .inl timedOut
        · exact .inr (Classical.not_not.mp fun other => phase ⟨timedOut, other⟩)
      · obtain ⟨b, inside, facts⟩ := due id later
        exact ⟨b, List.mem_cons_of_mem _ inside, facts⟩

/-- A due allocation still has the record it had, and only a serial run can be that old. -/
theorem Due.prunable {w : Cluster} (due : Due s f allocs ids w) (kept : s.Invariant J w) (watched : Watched s allocs w)
    (released : ∀ id, f.isReleased id = (s.books w).fleet.isReleased id) {id : String} (member : id ∈ ids) :
    s.Serial ∧ id ∉ (s.books w).fleet.pending ∧
      ∃ r, (s.books w).record id = some r ∧ Prunable s (s.books w) id r := by
  obtain ⟨a, inside, rfl, stopped, ⟨now, shown, past, old⟩, phase⟩ := due id member
  obtain ⟨r, found, advances⟩ := watched.records a inside
  have terminal : a.phase.terminal = true := by
    obtain timedOut | ⟨deleted, _⟩ := phase
    · rw [timedOut]
      rfl
    · rw [deleted]
      rfl
  obtain ⟨samePhase, sameTime⟩ := advances.final terminal
  have serial : s.Serial := by
    obtain zero | ⟨_, _, _, _, dated⟩ := kept.sound.dated a.id r found
    · exact absurd (sameTime ▸ zero) stopped
    · exact s.serial_of_retention dated shown (by rw [sameTime]; exact old)
  refine ⟨serial, watched.settled serial a inside, r, found, samePhase ▸ terminal, sameTime ▸ stopped,
    ⟨now, past, sameTime ▸ old⟩, ?_⟩
  obtain timedOut | ⟨_, isReleased⟩ := phase
  · exact .inl (samePhase.trans timedOut)
  · exact .inr (released a.id ▸ isReleased)

theorem deletePruned_triple (preserved : Preserved s J) (ids : List String) :
    s.Triple J thread (Marked s ids) (o.deletePruned ids) fun _ _ => True := by
  induction ids with
  | nil => exact .done fun _ _ => trivial
  | cons id rest ih =>
    have delete : s.Triple J thread (Marked s (id :: rest)) (o.store.delete id)
        fun _ w => Marked s rest w := by
      refine delete_triple marked_stable (fun e w _ ⟨serial, marked⟩ =>
        ⟨serial, fun other member => marked other (List.mem_cons_of_mem _ member)⟩) ?_
      rintro w after kept ⟨serial, marked⟩ deletes
      obtain ⟨isMarked, prunable⟩ := marked id List.mem_cons_self
      have notFleet := kept.sound.named id (kept.sound.drawn id (kept.sound.prunedCreated id isMarked).1)
      obtain ⟨r, found⟩ := Option.ne_none_iff_exists'.mp
        (record_isSome_of_lookup kept.wellFormed notFleet deletes.1)
      obtain ⟨act, same⟩ := act_deletes notFleet deletes fun removable =>
        .remove id r serial found (prunable r found) isMarked removable
      refine ⟨act.keeps preserved kept, fun e => ⟨serial, fun other member => ?_⟩⟩
      obtain ⟨isMarked, prunable⟩ := marked other (List.mem_cons_of_mem _ member)
      rw [same]
      refine ⟨isMarked, fun r known => ?_⟩
      by_cases gone : other = id
      · subst gone
        simp at known
      · have known : (s.books w).record other = some r := by simpa [Function.update_of_ne gone] using known
        exact ⟨(prunable r known).terminal, (prunable r known).stopped, (prunable r known).old,
          (prunable r known).released⟩
    unfold Operator.deletePruned
    refine .bind delete fun failed => ?_
    cases failed with
    | none => exact ih
    | some e => exact .bind ih fun _ => .done fun _ _ => trivial

theorem pruneTerminalAllocations_triple (preserved : Preserved s J) (config : o.config = s.config thread)
    (allocs : List Allocation) :
    s.Triple J thread (Watched s allocs) (o.pruneTerminalAllocations allocs)
      fun _ _ => True := by
  have own : o.config.name = s.name := config ▸ s.named thread
  unfold Operator.pruneTerminalAllocations
  split
  · exact .done fun _ _ => trivial
  refine .bind (of_workers (loadFleet_held preserved own watched_stable)) fun reply => ?_
  cases reply with
  | error e => exact .done fun _ _ => trivial
  | ok pair =>
    obtain ⟨cm, f⟩ := pair
    dsimp only
    refine .given (fun w ⟨_, _, read⟩ => (read cm f rfl).2) fun bound => ?_
    have stable : (s.workers J).Stable thread fun w => Watched s allocs w ∧ Held s cm w :=
      watched_stable.and (held_stable cm)
    refine .bind (of_workers ((markPruned_triple preserved stable allocs f).pre_mono fun w ⟨kept, watched, read⟩ =>
      ⟨watched, .of_lookup kept (read cm f rfl).1⟩)) fun result => ?_
    obtain ⟨f', ids, failures⟩ := result
    dsimp only
    refine .given (fun w ⟨_, content, _⟩ => content) fun same => ?_
    subst same
    split
    swap
    · -- without marks there is nothing to delete
      obtain rfl : ids = [] := List.eq_nil_of_length_eq_zero (by omega)
      exact .done fun _ _ => trivial
    rename_i nonempty
    -- the marks are saved before any record goes
    have mark : s.Triple J thread
        (fun w => (Watched s allocs w ∧ Held s cm w) ∧ Due s f allocs ids w)
        (saveFleet cm { f with pruned := GoMap.insertAll (ids.map fun id => (id, true)) f.pruned })
        fun failed w => failed = none → Marked s ids w := by
      refine saveFleet_move preserved (stable_of_workers (stable.and due_stable)) (fun w holds => holds.1.2)
        (fun e w _ _ same => by cases same) ?_
      rintro w kept ⟨⟨watched, _⟩, due⟩ found
      have stored := books_fleet found
      have released (id : String) : f.isReleased id = (s.books w).fleet.isReleased id := by
        rw [bind_frame bound, stored]
        rfl
      have prunable {id : String} (member : id ∈ ids) := due.prunable kept watched released member
      obtain ⟨first, inside⟩ := List.exists_mem_of_length_pos nonempty
      have serial := (prunable inside).1
      rw [config, ← stored] at bound
      refine ⟨.prune f ids serial bound fun id member => (prunable member).2, fun after _ _ same _ _ => ⟨serial, ?_⟩⟩
      intro id member
      rw [same]
      refine ⟨isPruned_insertAll.mpr (.inl member), fun r known => ?_⟩
      obtain ⟨_, _, r', found, facts⟩ := prunable member
      have known : (s.books w).record id = some r := known
      rw [found] at known
      cases known
      refine ⟨facts.terminal, facts.stopped, facts.old, facts.released.imp_right fun marked => ?_⟩
      rw [bind_frame bound]
      exact marked
    refine .bind (mark.pre_mono fun w ⟨holds, _, due⟩ => ⟨holds, due⟩) fun failed => ?_
    cases failed with
    | some e => exact .done fun _ _ => trivial
    | none =>
      exact .bind ((deletePruned_triple preserved ids).pre_mono fun w saved => saved rfl) fun _ => .done fun _ _ => trivial

end Prune

/-! ## The cycle -/

section Tick

variable {s : Setting} {J : Cluster → Prop} {thread : Nat} {o : Operator}

theorem pollAzureInterruptions_triple {pre : Cluster → Prop} (stable : (s.workers J).Stable thread pre) :
    s.WorkerTriple J thread pre o.pollAzureInterruptions fun _ w => pre w := by
  unfold Operator.pollAzureInterruptions
  split
  · exact .done fun _ holds => holds
  · refine .bind (ask_outside stable fun _ _ _ executed => executed) fun reply => ?_
    cases reply <;> exact .done fun _ holds => holds

theorem tickRecorded_triple (preserved : Preserved s J) (config : o.config = s.config thread) (f : Fleet) :
    s.Triple J thread
      (fun w => s.Serial → ∀ id, id ∉ (s.books w).fleet.pending) (o.tickRecorded f) fun _ _ => True := by
  have own : o.config.name = s.name := config ▸ s.named thread
  unfold Operator.tickRecorded
  let settled (w : Cluster) : Prop := s.Serial → ∀ id, id ∉ (s.books w).fleet.pending
  have settledStable : (s.rely J).Stable thread settled := by
    rintro w after _ ⟨_, _, quiet⟩ settled serial
    rw [quiet serial]
    exact settled serial
  have list : s.Triple J thread settled o.store.list fun reply w =>
      ∀ allocs, reply = .ok allocs → Watched s allocs w ∧ ∀ a ∈ allocs, Holding s a w := by
    refine list_triple rely_respects own settledStable (fun e w _ _ allocs same => by cases same) ?_
    intro allocs w kept empty lists other same
    cases same
    refine ⟨⟨fun a member => ?_, fun serial a _ => empty serial a.id, fun a member => ?_⟩, fun a member => ?_⟩
    · exact (Holding.of_record kept (lists.sound a member)).created
    · exact ⟨a, lists.sound a member, .refl a⟩
    · exact .of_record kept (lists.sound a member)
  refine .bind list fun reply => ?_
  cases reply with
  | error e => exact .done fun _ _ => trivial
  | ok allocs =>
    dsimp only
    have holding : (s.workers J).Stable thread fun w => Watched s allocs w ∧ ∀ a ∈ allocs, Holding s a w :=
      watched_stable.and fun before after kept relied holding a member =>
        holding_stable a before after kept relied (holding a member)
    refine .bind (of_workers ((pollAzureInterruptions_triple holding).pre_mono fun w listed => listed allocs rfl))
      fun interruptions => ?_
    have steps (c : Controller) : s.WorkerTriple J thread
        (fun w => (∀ a ∈ allocs, Holding s a w) ∧ Watched s allocs w) (o.stepAll c interruptions f allocs)
        fun _ w => True ∧ Watched s allocs w :=
      (stepAll_triple preserved own c interruptions f allocs).frame trivial watched_stable
    refine .bind (of_workers ((steps _).pre_mono fun w ⟨watched, holding⟩ => ⟨holding, watched⟩)) fun outcomes => ?_
    obtain ⟨outcomes, failures⟩ := outcomes
    refine .bind ((retries preserved config watched_stable).pass.pre_mono fun w holds => holds.2)
      fun retryErr => ?_
    exact .bind (pruneTerminalAllocations_triple preserved config allocs) fun _ => .done fun _ _ => trivial

/-- `Tick` keeps every invariant that the moves keep. -/
theorem tick_triple (preserved : Preserved s J) (config : o.config = s.config thread) :
    s.Triple J thread (fun _ => True) o.tick fun _ _ => True := by
  have own : o.config.name = s.name := config ▸ s.named thread
  unfold Operator.tick
  refine .bind (of_workers (loadFleet_held preserved own (Rely.stable_pure True))) fun reply => ?_
  cases reply with
  | error e => exact .done fun _ _ => trivial
  | ok pair =>
    obtain ⟨cm, f⟩ := pair
    dsimp only
    refine .given (fun w ⟨_, _, read⟩ => (read cm f rfl).2) fun bound => ?_
    have frame := bind_frame bound
    by_cases fresh : ∀ id a, f.pending.lookup id = some a → Fresh id a
    swap
    · refine fun w ⟨kept, _, read⟩ => absurd (fun id a found => kept.sound.fresh id a ?_) fresh
      rw [books_fleet (read cm f rfl).1]
      rw [frame] at found
      exact found
    have read (w : Cluster) (kept : s.Invariant J w) (found : w.maps.lookup (fleetName s.name) = some cm) :
        Awaited s cm f w := by
      have pending : f.pending = (s.books w).fleet.pending := by rw [frame, books_fleet found]
      refine ⟨.of_lookup kept found, fun id member => kept.sound.pendingCreated id (pending ▸ member),
        fun id member => ?_, fun _ => found⟩
      rw [← Bool.not_eq_true]
      exact fun marked => (kept.sound.prunedCreated id marked).2 (pending ▸ member)
    have order : s.Triple J thread (Awaited s cm f)
        (Program.ask (S := Api) (.rangeOrder f.pending.keys)) fun order w =>
          s.Invariant J w ∧ Awaited s cm f w ∧ order.Perm f.pending.keys := by
      refine .request awaited_stable fun w order after kept awaited ⟨same, perm⟩ => ?_
      subst same
      exact ⟨kept, fun _ _ => (s.rely J).refl _ _, kept, awaited, perm⟩
    refine .bind (order.pre_mono fun w ⟨kept, _, loaded⟩ => read w kept (loaded cm f rfl).1) fun order => ?_
    refine .given (fun w ⟨_, _, perm⟩ => perm) fun all => ?_
    refine .bind ((migrate_triple preserved own bound fresh order).pre_mono fun w ⟨kept, awaited, _⟩ =>
      ⟨kept, awaited⟩) fun reply => ?_
    cases reply with
    | error e => exact .done fun _ _ => trivial
    | ok f' =>
      dsimp only
      -- the order covers the map, so nothing is left pending
      have save : s.Triple J thread
          (fun w => ∃ left, (f' = { f with pending := left } ∧
            (∀ id a, left.lookup id = some a → f.pending.lookup id = some a) ∧ (∀ id, id ∉ left)) ∧
            Awaited s cm f w ∧ Recorded s f (· ∉ left) w) (saveFleet cm f')
          fun failed w => failed = none → s.Serial → ∀ id, id ∉ (s.books w).fleet.pending := by
        refine .exists_pre fun left => ?_
        by_cases facts : f' = { f with pending := left } ∧
            (∀ id a, left.lookup id = some a → f.pending.lookup id = some a) ∧ (∀ id, id ∉ left)
        swap
        · exact fun w holds => absurd holds.1 facts
        obtain ⟨rfl, kept, empty⟩ := facts
        exact (saveFleet_migrated preserved config bound kept empty).pre_mono fun w holds => holds.2
      refine .bind (save.pre_mono fun w migrated => ?_) fun failed => ?_
      · obtain ⟨left, same, inside, passed, awaited, recorded⟩ := migrated f' rfl
        refine ⟨left, ⟨same, inside, fun id still => ?_⟩, awaited, recorded⟩
        obtain ⟨a, found⟩ := GoMap.mem_iff.mp still
        exact passed id (all.mem_iff.mpr (AList.mem_keys.mpr (GoMap.mem_iff.mpr ⟨a, inside id a found⟩))) still
      · cases failed with
        | some e => exact .done fun _ _ => trivial
        | none => exact (tickRecorded_triple preserved config f').pre_mono fun w saved => saved rfl

end Tick

end RunnerScout.Capacity
