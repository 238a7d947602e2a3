import RunnerScout.State.Replay
import RunnerScout.Ticks.Workers

/-! # Whole cycles, and whole runs

The rest of `Tick` around its goroutines, the other calls of a scale set, and the
consequence for every run: its log is a chronicle.
-/

namespace RunnerScout.Ticks

open Interaction Lifecycle Placement Operator State
open Capacity (Call)

/-! ## The fleet -/

theorem FreshPending.bind {name : String} {f bound : Fleet} {c : Config} (fresh : FreshPending name f)
    (binds : f.bind c = .ok bound) : FreshPending name bound := by
  rw [bind_frame binds]
  exact fresh

section Fleet

variable {crew : Crew} {first : Maps} {thread : Nat} {w after : Site} {o : Operator} {cm : ConfigMap} {f : Fleet}

theorem Kept.opened (kept : Kept crew first w) (opened : FleetOpened crew.rules thread w after) :
    Kept crew first after ∧ ∀ other, other ≠ thread → Extends crew.name other w after := by
  have records := opened.record kept.wellFormed
  have fleet : after.fleet crew.name = w.fleet crew.name := opened.fleet
  have wellFormed := opened.wellFormed kept.wellFormed
  have evolves := opened.evolves
  obtain ⟨_, version, newer, rfl⟩ := opened
  refine ⟨⟨wellFormed, kept.chronicle.wrote (.fleet records fun _ id member => ?_), ?_⟩,
    fun other different => extends_wrote evolves (.inl different)⟩
  · change id ∈ (w.fleet crew.name).created
    rw [← fleet]
    exact member
  · rw [fleet]
    exact kept.pending

theorem Kept.fleetSaved (kept : Kept crew first w) (saved : FleetSaved crew.rules thread w cm f after)
    (draining : (crew.calls thread).operator.draining = true → ∀ id ∈ f.created, id ∈ (fleetOf cm).created)
    (pending : FreshPending crew.name f) :
    Kept crew first after ∧ (∀ other, other ≠ thread → Extends crew.name other w after) ∧
      after.fleet crew.name = f := by
  obtain ⟨found, version, newer, rfl⟩ := saved
  have fleet : (putFleet crew.rules thread w cm f version).fleet crew.name = f := putFleet_fleet
  have before : w.fleet crew.name = fleetOf cm := fleet_of_lookup found
  have records := @putFleet_record _ crew.rules thread w cm f version kept.wellFormed found newer
  have genuine := @putFleet_genuine _ crew.rules w cm f version (kept.wellFormed _ _ found) newer
  refine ⟨kept.wrote newer genuine (.fleet records fun drains id member => ?_) ?_,
    fun other different => extends_wrote (evolves_write newer rfl) (.inl different), fleet⟩
  · change id ∈ (w.fleet crew.name).created
    rw [before]
    change id ∈ ((putFleet crew.rules thread w cm f version).fleet crew.name).created at member
    rw [fleet] at member
    exact draining drains id member
  · change FreshPending crew.name ((putFleet crew.rules thread w cm f version).fleet crew.name)
    rw [fleet]
    exact pending

/-- A record goes once its runner is deregistered. -/
theorem Kept.removed {id : String} (kept : Kept crew first w) (notFleet : id ≠ fleetName crew.name)
    (deletes : crew.rules.Deletes thread w id after) (cleared : crew.Serial → Cleared w.history id) :
    Kept crew first after ∧ ∀ other, Extends crew.name other w after := by
  obtain ⟨present, _, version, newer, rfl⟩ := deletes
  obtain ⟨r, found⟩ := Option.ne_none_iff_exists'.mp (record_isSome_of_lookup kept.wellFormed notFleet present)
  have named : r.id = id := kept.wellFormed.record_id found
  have fleet := @erase_fleet id _ crew.rules thread w version notFleet
  have records := @erase_record id _ crew.rules thread w version
  refine ⟨⟨erase_wellFormed kept.wellFormed newer, kept.chronicle.wrote (.record records fleet ?_), ?_⟩,
    fun other => extends_wrote (erase_evolves newer) (.inr (AList.lookup_erase_ne (Ne.symm notFleet)))⟩
  · rw [show w.maps.record id = some r from found]
    exact .removed fun serial => named ▸ cleared serial
  · change FreshPending crew.name ((crew.rules.write thread w (w.maps.erase id) version).fleet crew.rules.name)
    rw [fleet]
    exact kept.pending

theorem loadFleet_read (own : o.config.name = crew.name) :
    crew.Triple first thread (fun _ => True) o.loadFleet fun reply w =>
      ∀ cm f, reply = .ok (cm, f) →
        FleetRead crew.rules cm w ∧ (fleetOf cm).bind o.config = .ok f ∧ FreshPending crew.name f := by
  apply loadFleet_triple own (Rely.stable_pure True)
  · intro e w _ _ cm f same
    cases same
  · intro w after kept _ opened
    obtain ⟨still, others⟩ := Kept.opened kept opened
    exact ⟨keeps still others, trivial⟩
  · intro cm f w kept _ found bound cm' f' same
    cases same
    have fresh : FreshPending crew.name (w.fleet crew.rules.name) := kept.pending
    rw [fleet_of_lookup found] at fresh
    exact ⟨.of_lookup rely_respects kept found, bound, fresh.bind bound⟩

/-- Saving the fleet over the one that was read. -/
theorem saveFleet_kept {held : Site → Prop} (stable : (rely crew first).Stable thread held)
    (carried : ∀ w after, held w → FleetSaved crew.rules thread w cm f after → held after)
    (draining : (crew.calls thread).operator.draining = true → ∀ id ∈ f.created, id ∈ (fleetOf cm).created)
    (pending : FreshPending crew.name f) :
    crew.Triple first thread (fun w => held w ∧ FleetRead crew.rules cm w) (saveFleet cm f)
      fun failed w => held w ∧ (failed = none → w.fleet crew.name = f) := by
  apply saveFleet_triple (stable.and (fleetRead_stable rely_respects cm))
  · exact fun w _ read => read.2
  · exact fun e w _ read => ⟨read.1, fun none => by cases none⟩
  · intro w after kept ⟨holds, _⟩ saved
    obtain ⟨still, others, fleet⟩ := Kept.fleetSaved kept saved draining pending
    exact ⟨keeps still others, fun _ => ⟨carried w after holds saved, fun _ => fleet⟩⟩

end Fleet

/-! ## Requests that leave the cluster alone -/

/-- Neither a map, nor a poll, nor a call to a provider. -/
def quietRequest : ApiRequest → Prop
  | .now | .newUUID | .readCatalog _ | .observePrice _ | .attemptJobs _ _ _ _ | .rerunFailedJobs _ _ _ | .note _
  | .deregisterRunner _ => True
  | _ => False

section Quiet

variable {crew : Crew} {first : Maps} {thread : Nat} {w after : Site}

theorem Kept.quiet {request : ApiRequest} {reply : ApiReply request} (kept : Kept crew first w)
    (quiet : quietRequest request) (executed : crew.rules.semantics thread w request reply after) :
    Kept crew first after ∧ after.maps = w.maps ∧ (∀ other, Extends crew.name other w after) ∧
      ∃ recent, after.history = recent ++ w.history ∧ ∀ id, .registered id ∉ recent := by
  have same {v : Site} (maps : v.maps = w.maps) (version : v.version = w.version) (history : v.history = w.history) :
      Kept crew first v ∧ v.maps = w.maps ∧ (∀ other, Extends crew.name other w v) ∧
        ∃ recent, v.history = recent ++ w.history ∧ ∀ id, .registered id ∉ recent := by
    have evolves : Evolves w v := ⟨Nat.le_of_eq version.symm, fun key slot found => .inl (maps ▸ found)⟩
    refine ⟨⟨?_, ?_, ?_⟩, maps, fun _ => ⟨evolves, [], history, by simp⟩, [], history, by simp⟩
    · unfold WellFormed
      rw [maps, version]
      exact kept.wellFormed
    · rw [maps, history]
      exact kept.chronicle
    · change FreshPending crew.name (v.maps.fleet crew.name)
      rw [maps]
      exact kept.pending
  have entry (clock : Time) (event : Event) (reason : Reason crew w.maps w.history event)
      (shared : ∀ other, ¬ Private crew.name other event) (unregistered : ∀ id, event ≠ .registered id) :
      Kept crew first { w with clock := clock, history := event :: w.history } ∧ w.maps = w.maps ∧
        (∀ other, Extends crew.name other w { w with clock := clock, history := event :: w.history }) ∧
        ∃ recent, event :: w.history = recent ++ w.history ∧ ∀ id, .registered id ∉ recent := by
    obtain ⟨still, others⟩ := logged kept [event] clock (by simpa using shared) (kept.chronicle.event reason)
    exact ⟨still, rfl, fun other => (others other).1, [event], rfl,
      fun id member => unregistered id (List.mem_singleton.mp member).symm⟩
  cases request with
  | now =>
    obtain ⟨_, rfl⟩ := executed
    exact entry _ _ trivial (by simp [Private, SavedFleet]) (by simp)
  | deregisterRunner id =>
    obtain ⟨_, rfl, rfl⟩ := executed
    exact entry w.clock _ trivial (by simp [Private, SavedFleet]) (by simp)
  | newUUID =>
    obtain ⟨_, _, rfl⟩ := executed
    exact same rfl rfl rfl
  | note moment =>
    cases moment with
    | examined id now =>
      obtain ⟨_, rfl, rfl⟩ := executed
      exact entry w.clock _ trivial (by simp [Private, SavedFleet]) (by simp)
    | started | classified | requesting =>
      obtain ⟨_, rfl, rfl⟩ := executed
      exact same rfl rfl rfl
  | readCatalog | observePrice | attemptJobs | rerunFailedJobs =>
    obtain ⟨_, rfl, rfl⟩ := executed
    exact same rfl rfl rfl
  | getMap | createMap | updateMap | deleteMap | listMaps | pollInterruptions | provider | rangeOrder | schedule =>
    exact quiet.elim

end Quiet

/-! ## Pending admissions -/

/-- What the loop over the pending admissions knows. -/
structure Waiting (crew : Crew) (first : Maps) (cm : ConfigMap) (pending : GoMap String Allocation) (w : Site) : Prop where
  kept : Kept crew first w
  read : FleetRead crew.rules cm w
  fresh : FreshPending crew.name { (fleetOf cm) with pending := pending }

section Tick

variable {crew : Crew} {first : Maps} {thread : Nat} {o : Operator} {cm : ConfigMap} {f : Fleet}

theorem migrate_triple (own : o.config.name = crew.name) (order : List String) (f : Fleet) :
    crew.Triple first thread (Waiting crew first cm f.pending) (o.migrate order f)
      fun reply w => ∀ f', reply = .ok f' →
        ∃ left, f' = { f with pending := left } ∧ FreshPending crew.name f' ∧ FleetRead crew.rules cm w := by
  refine (migrate_rule (fun pending id a entry => ?_) order f).mono fun reply w all f' same => ?_
  swap
  · obtain ⟨left, content, _, _, waiting⟩ := all f' same
    subst content
    exact ⟨left, rfl, waiting.fresh, waiting.read⟩
  let held (w : Site) : Prop :=
    FleetRead crew.rules cm w ∧ FreshPending crew.name { (fleetOf cm) with pending := pending }
  have stable : (rely crew first).Stable thread held := (fleetRead_stable rely_respects cm).and (Rely.stable_pure _)
  -- an entry that was recorded is no longer waiting
  have left {w : Site} (kept : Kept crew first w) (holds : held w) : Waiting crew first cm (pending.erase id) w :=
    ⟨kept, holds.1, fun other b found => holds.2 other b (GoMap.lookup_erase_eq_some.mp found).2⟩
  have create : crew.Triple first thread (fun w => Kept crew first w ∧ held w)
      (o.store.save (if o.draining then { a with retire := true } else a) 0)
      fun reply w => Taken reply → Waiting crew first cm (pending.erase id) w := by
    apply create_triple own stable
    · exact fun e w kept holds _ _ => left kept holds
    · intro w stored after kept holds created
      obtain ⟨named, notFleet, phase, condition⟩ := holds.2 id a entry
      obtain ⟨free, saved, newer, canonical, rfl⟩ := created
      have fields : stored.id = id ∧ stored.phase = .pending ∧ stored.condition = "" := by
        rw [saved]
        split <;> exact ⟨named, phase, condition⟩
      have asked : (if o.draining then { a with retire := true } else a : Allocation).id = id := by
        split <;> exact named
      have absent : w.record stored.id = none := by
        rw [asked] at free
        rw [fields.1]
        simp only [World.record, Maps.record, free, Option.bind_none]
      have reason : Replaced crew w.maps w.history thread (w.record stored.id) (some stored) := by
        rw [absent]
        exact .recorded fields.2.1 fields.2.2
      obtain ⟨still, others⟩ := kept.putRecord (fields.1 ▸ notFleet) canonical newer reason
      have later : held (putRecord crew.rules thread w stored) :=
        ⟨⟨holds.1.1, holds.1.2.1, holds.1.2.2.evolves (others thread).evolves⟩, holds.2⟩
      exact ⟨keeps still fun other _ => others other, fun _ => left still later, fun _ _ => left still later⟩
  exact create.pre_mono fun w waiting => ⟨waiting.kept, waiting.read, waiting.fresh⟩

/-! ## The fan-out -/

theorem list_listed (own : o.config.name = crew.name) :
    crew.Triple first thread
      (fun w => crew.Serial → (w.fleet crew.name).created = f.created) o.store.list
      fun reply w => ∀ allocs, reply = .ok allocs →
        (∀ a ∈ allocs, Found crew f a w) ∧ ∀ a ∈ allocs, a.id ≠ fleetName crew.name := by
  apply list_triple rely_respects own
  · rintro w after _ ⟨_, quiet⟩ stamps serial
    rw [quiet serial]
    exact stamps serial
  · intro e w _ _ allocs same
    cases same
  · intro allocs w kept stamps lists allocs' same
    cases same
    refine ⟨fun a member => ?_, fun a member => (kept.wellFormed.lookup_of_record (lists.sound a member)).1⟩
    have found := lists.sound a member
    refine ⟨.of_record kept.wellFormed found, stamps, fun _ retired r current => ?_⟩
    rw [found] at current
    cases current
    exact retired

theorem found_rely (allocs : List Allocation) :
    (rely crew first).Stable thread fun w => ∀ a ∈ allocs, Found crew f a w :=
  stable_of_workers fun before after kept relied found a member =>
    found_stable f a before after kept relied (found a member)

/-- After the poll the cycle holds the interruptions of this poll, or none. -/
theorem poll_triple (call : crew.calls thread = .tick o) (allocs : List Allocation) :
    crew.Triple first thread (fun w => ∀ a ∈ allocs, Found crew f a w)
      o.pollAzureInterruptions fun interruptions w => ∀ a ∈ allocs, Listed crew f thread interruptions a w := by
  have poll : crew.Triple first thread (fun w => ∀ a ∈ allocs, Found crew f a w)
      (Program.ask (S := Api) .pollInterruptions) fun reply w =>
        lastPolled thread w.history = some reply ∧ ∀ a ∈ allocs, Found crew f a w := by
    refine .request (found_rely allocs) fun w reply after kept listed executed => ?_
    obtain ⟨_, rfl, rfl⟩ := executed
    have still : Kept crew first { w with history := .polled thread reply :: w.history } :=
      ⟨kept.wellFormed, kept.chronicle.event trivial, kept.pending⟩
    have evolves : Evolves w { w with history := Event.polled thread reply :: w.history } :=
      ⟨Nat.le_refl _, fun _ _ found => .inl found⟩
    have promised : Keeps (rely crew first) thread w { w with history := Event.polled thread reply :: w.history } :=
      keeps still fun other different =>
        ⟨evolves, [.polled thread reply], rfl, by simpa [Private, SavedFleet] using Ne.symm different⟩
    refine ⟨promised.1, promised.2, by simp [lastPolled], fun a member => ?_⟩
    have known := listed a member
    exact ⟨known.seen.evolves evolves, known.stamps, known.retired⟩
  unfold Operator.pollAzureInterruptions
  split
  · rename_i unset
    refine .done fun w found a member => ⟨found a member, .off ?_⟩
    rw [call]
    exact Bool.not_eq_true' _ ▸ unset
  refine .bind poll fun reply => ?_
  cases reply with
  | error e => exact .done fun w told a member => ⟨told.2 a member, .failed told.1⟩
  | ok results => exact .done fun w told a member => ⟨told.2 a member, .read told.1⟩

/-! ## Reruns -/

theorem retries (own : o.config.name = crew.name) :
    Retries crew.rules (rely crew first) thread o fun _ => True where
  respects := rely_respects
  own := own
  stable := Rely.stable_pure True
  asks := by
    intro request w reply after asked kept _ executed
    have quiet : quietRequest request := by cases request <;> first | exact asked | exact asked.elim
    obtain ⟨still, _, others, _⟩ := Kept.quiet kept quiet executed
    exact ⟨keeps still fun other _ => others other, (others thread).evolves, trivial⟩
  opens := by
    intro w after kept _ opened
    obtain ⟨still, others⟩ := Kept.opened kept opened
    exact ⟨keeps still others, trivial⟩
  saves := by
    intro a x w stored after _ same kept _ seen saved
    have named : x.id = a.id := by obtain rfl | rfl := same <;> rfl
    obtain ⟨still, others, _⟩ := Kept.saved kept seen named saved fun stores => .edited (.inr same) stores
    exact ⟨keeps still fun other _ => others other, (others thread).evolves, trivial⟩
  fleet := by
    intro cm f f' w after bound retried kept _ saved
    have content : f'.created = (fleetOf cm).created ∧ f'.pending = (fleetOf cm).pending := by
      obtain ⟨used, reruns, rfl⟩ := retried
      rw [bind_frame bound]
      exact ⟨rfl, rfl⟩
    have fresh : FreshPending crew.name (fleetOf cm) := by
      rw [← fleet_of_lookup saved.1]
      exact kept.pending
    have pending : FreshPending crew.name f' := fun id a found => fresh id a (content.2 ▸ found)
    obtain ⟨still, others, _⟩ := Kept.fleetSaved kept saved (fun _ id member => content.1 ▸ member) pending
    exact ⟨keeps still others, trivial⟩

/-! ## Pruning -/

/-- The runners of these allocations are deregistered, as far as a call that runs alone can tell. -/
def Cleaned (crew : Crew) (ids : List String) (w : Site) : Prop := crew.Serial → ∀ id ∈ ids, Cleared w.history id

theorem Cleared.append {recent log : Log} {id : String} (cleared : Cleared log id) (unregistered : .registered id ∉ recent) :
    Cleared (recent ++ log) id := by
  obtain ⟨since, thread, earlier, rfl, quiet⟩ := cleared
  refine ⟨recent ++ since, thread, earlier, by simp, fun member => ?_⟩
  obtain new | old := List.mem_append.mp member
  · exact unregistered new
  · exact quiet old

theorem Cleared.cons {event : Event} {log : Log} {id : String} (cleared : Cleared log id) (other : event ≠ .registered id) :
    Cleared (event :: log) id := by
  have unregistered : .registered id ∉ [event] := fun member => other (List.mem_singleton.mp member).symm
  exact cleared.append unregistered

theorem cleaned_stable (ids : List String) : (rely crew first).Stable thread (Cleaned crew ids) := by
  rintro w after _ ⟨_, quiet⟩ cleaned serial
  rw [quiet serial]
  exact cleaned serial

/-- While it marks, a call holds the fleet it read and what it has deregistered. -/
theorem markPruned_triple (allocs : List Allocation) (done : List String) (f : Fleet) :
    crew.Triple first thread (fun w => Cleaned crew done w ∧ FleetRead crew.rules cm w)
      (markPruned allocs f) fun result w =>
        ((Cleaned crew done w ∧ Cleaned crew result.2.1 w) ∧ FleetRead crew.rules cm w) ∧
          (∃ pruned, result.1 = { f with pruned := pruned }) ∧ ∀ id ∈ result.2.1, ∃ a ∈ allocs, a.id = id := by
  let held (ids : List String) (w : Site) : Prop := Cleaned crew ids w ∧ FleetRead crew.rules cm w
  have stable (ids : List String) : (rely crew first).Stable thread (held ids) :=
    (cleaned_stable ids).and (fleetRead_stable rely_respects cm)
  -- a request that is not a write keeps both
  have ask (ids : List String) {request : ApiRequest} (quiet : quietRequest request) :
      crew.Triple first thread (held ids) (Program.ask (S := Api) request) fun _ w =>
        held ids w := by
    refine .request (stable ids) fun w reply after kept ⟨cleaned, read⟩ executed => ?_
    obtain ⟨still, _, others, recent, grown, unregistered⟩ := Kept.quiet kept quiet executed
    have promised : Keeps (rely crew first) thread w after := keeps still fun other _ => others other
    refine ⟨promised.1, promised.2, fun serial id member => ?_, read.1, read.2.1, read.2.2.evolves (others thread).evolves⟩
    rw [grown]
    exact (cleaned serial id member).append (unregistered id)
  induction allocs generalizing done f with
  | nil =>
    refine .done fun w holds => ⟨⟨⟨holds.1, fun _ id member => ?_⟩, holds.2⟩, ⟨f.pruned, rfl⟩, fun id member => ?_⟩
    all_goals exact (List.not_mem_nil member).elim
  | cons a rest ih =>
    have skip (f' : Fleet) : crew.Triple first thread (held done) (markPruned rest f')
        fun result w => ((Cleaned crew done w ∧ Cleaned crew result.2.1 w) ∧ FleetRead crew.rules cm w) ∧
          (∃ pruned, result.1 = { f' with pruned := pruned }) ∧ ∀ id ∈ result.2.1, ∃ b ∈ a :: rest, b.id = id := by
      refine (ih done f').mono fun result w ⟨holds, same, inside⟩ => ⟨holds, same, fun id member => ?_⟩
      obtain ⟨b, later, named⟩ := inside id member
      exact ⟨b, List.mem_cons_of_mem _ later, named⟩
    have deregister : crew.Triple first thread (held done)
        (Program.ask (S := Api) (.deregisterRunner a.id)) fun reply w =>
          held done w ∧ (reply = none → held (a.id :: done) w) := by
      refine .request (stable done) fun w reply after kept ⟨cleaned, read⟩ executed => ?_
      have quiet : quietRequest (.deregisterRunner a.id) := trivial
      obtain ⟨still, _, others, _⟩ := Kept.quiet kept quiet executed
      have promised : Keeps (rely crew first) thread w after := keeps still fun other _ => others other
      obtain ⟨_, rfl, rfl⟩ := executed
      have old (serial : crew.Serial) (id : String) (member : id ∈ done) :
          Cleared (.deregistered thread a.id reply :: w.history) id :=
        (cleaned serial id member).cons (by simp)
      refine ⟨promised.1, promised.2, ⟨old, read⟩, fun none => ⟨fun serial id member => ?_, read⟩⟩
      subst none
      obtain rfl | later := List.mem_cons.mp member
      · exact ⟨[], thread, w.history, rfl, List.not_mem_nil⟩
      · exact old serial id later
    unfold markPruned
    split
    · exact skip f
    refine .bind (ask done trivial) fun now => ?_
    dsimp only
    split
    · exact skip f
    split
    · exact skip f
    refine .bind deregister fun reply => ?_
    cases reply with
    | some e =>
      refine .bind ((skip f).pre_mono fun w holds => holds.1) fun result => ?_
      exact .done fun w holds => holds
    | none =>
      refine .bind ((ih (a.id :: done) { f with pruned := f.pruned.insert a.id true }).pre_mono fun w holds =>
        holds.2 rfl) fun result => ?_
      refine .done fun w ⟨⟨⟨before, marked⟩, read⟩, same, inside⟩ => ⟨⟨⟨?_, ?_⟩, read⟩, same, ?_⟩
      · exact fun serial id member => before serial id (List.mem_cons_of_mem _ member)
      · intro serial id member
        obtain rfl | later := List.mem_cons.mp member
        · exact before serial _ List.mem_cons_self
        · exact marked serial id later
      · intro id member
        obtain rfl | later := List.mem_cons.mp member
        · exact ⟨a, List.mem_cons_self, rfl⟩
        · obtain ⟨b, among, named⟩ := inside id later
          exact ⟨b, List.mem_cons_of_mem _ among, named⟩

theorem deletePruned_triple (ids : List String) (records : ∀ id ∈ ids, id ≠ fleetName crew.name) :
    crew.Triple first thread (Cleaned crew ids) (o.deletePruned ids) fun _ _ => True := by
  induction ids with
  | nil => exact .done fun _ _ => trivial
  | cons id rest ih =>
    have delete : crew.Triple first thread (Cleaned crew (id :: rest)) (o.store.delete id)
        fun _ w => Cleaned crew rest w := by
      apply delete_triple (cleaned_stable _)
      · exact fun e w _ cleaned serial other member => cleaned serial other (List.mem_cons_of_mem _ member)
      · intro w after kept cleaned deletes
        obtain ⟨still, others⟩ := Kept.removed kept (records id List.mem_cons_self) deletes fun serial =>
          cleaned serial id List.mem_cons_self
        refine ⟨keeps still fun other _ => others other, fun _ serial other member => ?_⟩
        obtain ⟨_, _, version, _, rfl⟩ := deletes
        exact (cleaned serial other (List.mem_cons_of_mem _ member)).cons (by simp)
    have next := ih fun other member => records other (List.mem_cons_of_mem _ member)
    unfold Operator.deletePruned
    refine .bind delete fun reply => ?_
    cases reply with
    | none => exact next
    | some e => exact .bind next fun _ => .done fun _ _ => trivial

theorem prune_triple (own : o.config.name = crew.name) (allocs : List Allocation)
    (records : ∀ a ∈ allocs, a.id ≠ fleetName crew.name) :
    crew.Triple first thread (fun _ => True) (o.pruneTerminalAllocations allocs)
      fun _ _ => True := by
  unfold Operator.pruneTerminalAllocations
  split
  · exact .done fun _ _ => trivial
  refine .bind (loadFleet_read own) fun reply => ?_
  cases reply with
  | error e => exact .done fun _ _ => trivial
  | ok pair =>
    obtain ⟨cm, f⟩ := pair
    dsimp only
    refine .given (fun w loaded => (loaded cm f rfl).2) fun ⟨bound, fresh⟩ => ?_
    refine .bind ((markPruned_triple allocs [] f).pre_mono fun w loaded =>
      ⟨fun _ id member => (List.not_mem_nil member).elim, (loaded cm f rfl).1⟩) fun result => ?_
    obtain ⟨f', ids, failures⟩ := result
    dsimp only
    refine .given (fun w marked => marked.2) fun marks => ?_
    obtain ⟨⟨pruned, content⟩, inside⟩ := marks
    have listed (id : String) (member : id ∈ ids) : id ≠ fleetName crew.name := by
      obtain ⟨a, among, rfl⟩ := inside id member
      exact records a among
    have save : crew.Triple first thread
        (fun w => Cleaned crew ids w ∧ FleetRead crew.rules cm w) (saveFleet cm f') fun _ w => Cleaned crew ids w := by
      refine (saveFleet_kept (cleaned_stable ids) ?_ ?_ ?_).mono fun _ _ saved => saved.1
      · rintro w after cleaned ⟨_, version, _, rfl⟩ serial id member
        exact (cleaned serial id member).cons (by simp)
      · rw [content, bind_frame bound]
        exact fun _ id member => member
      · rw [content]
        exact fresh
    have delete : crew.Triple first thread (Cleaned crew ids)
        (do return joinErrors (failures ++ (← o.deletePruned ids))) fun _ _ => True :=
      .bind (deletePruned_triple ids listed) fun _ => .done fun _ _ => trivial
    split
    · refine Rely.Triple.pre_mono (.bind save fun failed => ?_) fun w marked => ⟨marked.1.1.2, marked.1.2⟩
      cases failed with
      | some e => exact .done fun _ _ => trivial
      | none => exact delete
    · exact delete.pre_mono fun w marked => marked.1.1.2

/-! ## `Tick` -/

theorem tickRecorded_triple (own : o.config.name = crew.name) (call : crew.calls thread = .tick o) (f : Fleet) :
    crew.Triple first thread
      (fun w => crew.Serial → (w.fleet crew.name).created = f.created) (o.tickRecorded f) fun _ _ => True := by
  unfold Operator.tickRecorded
  refine .bind (list_listed own) fun reply => ?_
  cases reply with
  | error e => exact .done fun _ _ => trivial
  | ok allocs =>
    dsimp only
    refine .given (fun w listed => (listed allocs rfl).2) fun records => ?_
    refine .bind ((poll_triple call allocs).pre_mono fun w listed => (listed allocs rfl).1) fun interruptions => ?_
    refine .bind (of_workers (stepAll_rule trivial (listed_stable f) (fun a created stamped => examine_triple own stamped)
      (stepWorker_triple own call) allocs)) fun outcomes => ?_
    refine .bind (retries own).pass fun _ => ?_
    exact .bind (prune_triple own allocs records) fun _ => .done fun _ _ => trivial

theorem tick_triple (own : o.config.name = crew.name) (call : crew.calls thread = .tick o) :
    crew.Triple first thread (fun _ => True) o.tick fun _ _ => True := by
  unfold Operator.tick
  refine .bind (loadFleet_read own) fun reply => ?_
  cases reply with
  | error e => exact .done fun _ _ => trivial
  | ok pair =>
    obtain ⟨cm, f⟩ := pair
    dsimp only
    refine .given (fun w loaded => (loaded cm f rfl).2) fun ⟨bound, fresh⟩ => ?_
    have ranges : crew.Triple first thread (FleetRead crew.rules cm)
        (Program.ask (S := Api) (.rangeOrder f.pending.keys)) fun _ w => Waiting crew first cm f.pending w := by
      refine .request (fleetRead_stable rely_respects cm) fun w order after kept read executed => ?_
      obtain ⟨rfl, _⟩ := executed
      exact ⟨kept, fun _ _ => (rely crew first).refl _ _, kept, read, fresh⟩
    refine .bind (ranges.pre_mono fun w loaded => (loaded cm f rfl).1) fun order => ?_
    refine .bind (migrate_triple own order f) fun reply => ?_
    cases reply with
    | error e => exact .done fun _ _ => trivial
    | ok f' =>
      dsimp only
      by_cases migrated : ∃ left, f' = { f with pending := left } ∧ FreshPending crew.name f'
      swap
      · intro w holds
        obtain ⟨left, content, waiting, _⟩ := holds f' rfl
        exact absurd ⟨left, content, waiting⟩ migrated
      obtain ⟨left, content, waiting⟩ := migrated
      have draining : (crew.calls thread).operator.draining = true → ∀ id ∈ f'.created, id ∈ (fleetOf cm).created := by
        rw [content, bind_frame bound]
        exact fun _ id member => member
      have save : crew.Triple first thread (fun w => True ∧ FleetRead crew.rules cm w)
          (saveFleet cm f') _ :=
        saveFleet_kept (Rely.stable_pure True) (fun _ _ holds _ => holds) draining waiting
      refine .bind (save.pre_mono fun w holds => ⟨trivial, ?_⟩) fun failed => ?_
      · obtain ⟨_, _, _, read⟩ := holds f' rfl
        exact read
      cases failed with
      | some e => exact .done fun _ _ => trivial
      | none =>
        refine (tickRecorded_triple own call f').pre_mono fun w saved _ => ?_
        rw [saved.2 rfl]

end Tick

/-! ## `HandleDesiredRunnerCount` and `Drained` -/

section Calls

variable {crew : Crew} {first : Maps} {thread : Nat} {o : Operator} {cm : ConfigMap} {count : Int}

theorem release_frame (allocs : List Allocation) (f : Fleet) :
    (release allocs f).created = f.created ∧ (release allocs f).pending = f.pending := by
  induction allocs generalizing f with
  | nil => exact ⟨rfl, rfl⟩
  | cons a rest ih =>
    have one : (releaseTerminal f a).created = f.created ∧ (releaseTerminal f a).pending = f.pending := by
      unfold releaseTerminal
      split <;> exact ⟨rfl, rfl⟩
    obtain ⟨created, pending⟩ := ih (releaseTerminal f a)
    exact ⟨created.trans one.1, pending.trans one.2⟩

theorem FreshPending.grant {name id : String} {f : Fleet} {now : Time} {catalog : Catalog} {address : String}
    (named : id ≠ fleetName name) (fresh : FreshPending name f) :
    FreshPending name (o.grant f id now catalog address) := by
  intro other a found
  by_cases same : other = id
  · subst same
    simp only [Operator.grant, AList.lookup_insert] at found
    cases found
    exact ⟨rfl, named, rfl, rfl⟩
  · simp only [Operator.grant, AList.lookup_insert_ne same] at found
    exact fresh other a found

theorem batches : Batches crew.rules (rely crew first) thread (FleetRead crew.rules cm) where
  stable := fleetRead_stable rely_respects cm
  asks := by
    intro request w reply after asked kept read executed
    have quiet : quietRequest request := by cases request <;> first | exact asked | exact asked.elim
    obtain ⟨still, _, others, _⟩ := Kept.quiet kept quiet executed
    exact ⟨keeps still fun other _ => others other, read.1, read.2.1, read.2.2.evolves (others thread).evolves⟩

theorem desire_triple (call : crew.calls thread = .desiredRunnerCount o count) {f : Fleet}
    (created : f.created = (fleetOf cm).created) (fresh : FreshPending crew.name f) (allocs : List Allocation) :
    crew.Triple first thread (FleetRead crew.rules cm) (o.desire count cm f allocs)
      fun _ _ => True := by
  have save (f' : Fleet) (draining : o.draining = true → f'.created = (fleetOf cm).created)
      (pending : FreshPending crew.name f') :
      crew.Triple first thread (FleetRead crew.rules cm) (saveFleet cm f') fun _ _ => True := by
    have unchanged : (crew.calls thread).operator.draining = true → ∀ id ∈ f'.created, id ∈ (fleetOf cm).created := by
      rw [call]
      intro drains id member
      rw [← draining drains]
      exact member
    have kept : crew.Triple first thread (fun w => True ∧ FleetRead crew.rules cm w)
        (saveFleet cm f') _ :=
      saveFleet_kept (Rely.stable_pure True) (fun _ _ holds _ => holds) unchanged pending
    exact (kept.mono fun _ _ _ => trivial).pre_mono fun w read => ⟨trivial, read⟩
  unfold Operator.desire
  dsimp only
  split
  · exact .bind (save _ (fun _ => created) fresh) fun _ => .done fun _ _ => trivial
  rename_i admitting
  have running (drains : o.draining = true) : False := by simp [drains] at admitting
  split
  · exact .done fun _ _ => trivial
  rename_i n admission _
  refine .bind (batches.withinBudget _ allocs n) fun left => ?_
  split
  · exact .bind (save _ (fun _ => created) fresh) fun _ => .done fun _ _ => trivial
  split
  · exact .done fun _ _ => trivial
  have grants (f : Fleet) (id : String) (now : Time) (catalog : Catalog) (address : String)
      (named : id ≠ fleetName crew.rules.name) (fresh : FreshPending crew.name f) :
      FreshPending crew.name (o.grant f id now catalog address) := fresh.grant named
  refine .bind (batches.batch grants _ allocs left fresh) fun reply => ?_
  cases reply with
  | error reason =>
    refine Rely.Triple.pre_mono (.bind (save _ (fun _ => created) fresh) fun _ => ?_) fun w holds => holds.1
    exact .done fun _ _ => trivial
  | ok f' =>
    dsimp only
    refine .given (fun w holds => holds.2 f' rfl) fun admitted => ?_
    refine .bind ((save f' (fun drains => (running drains).elim) admitted).pre_mono fun w holds => holds.1) fun failed => ?_
    cases failed <;> exact .done fun _ _ => trivial

theorem handleDesiredRunnerCount_triple (own : o.config.name = crew.name)
    (call : crew.calls thread = .desiredRunnerCount o count) :
    crew.Triple first thread (fun _ => True) (o.handleDesiredRunnerCount count)
      fun _ _ => True := by
  unfold Operator.handleDesiredRunnerCount
  refine .bind (loadFleet_read own) fun reply => ?_
  cases reply with
  | error e => exact .done fun _ _ => trivial
  | ok pair =>
    obtain ⟨cm, f⟩ := pair
    dsimp only
    refine .given (fun w loaded => (loaded cm f rfl).2) fun ⟨bound, fresh⟩ => ?_
    have list : crew.Triple first thread (FleetRead crew.rules cm) o.store.list fun _ w =>
        FleetRead crew.rules cm w :=
      list_triple rely_respects own (fleetRead_stable rely_respects cm) (fun _ _ _ read => read) fun _ _ _ read _ => read
    refine .bind (list.pre_mono fun w loaded => (loaded cm f rfl).1) fun reply => ?_
    cases reply with
    | error e => exact .done fun _ _ => trivial
    | ok allocs =>
      obtain ⟨created, pending⟩ := release_frame allocs f
      refine desire_triple call ?_ (fun id a found => fresh id a (pending ▸ found)) allocs
      rw [created, bind_frame bound]

theorem drained_triple (own : o.config.name = crew.name) :
    crew.Triple first thread (fun _ => True) o.drained fun _ _ => True := by
  have read : crew.Triple first thread (fun _ => True) (o.readFleet false) fun _ _ => True :=
    readFleet_triple own (Rely.stable_pure True) (fun _ _ _ _ => trivial) fun _ _ _ _ _ _ => trivial
  have list : crew.Triple first thread (fun _ => True) o.store.list fun _ _ => True :=
    list_triple rely_respects own (Rely.stable_pure True) (fun _ _ _ _ => trivial) fun _ _ _ _ _ => trivial
  unfold Operator.drained
  refine .bind read fun reply => ?_
  cases reply with
  | error e => exact .done fun _ _ => trivial
  | ok pair =>
    dsimp only
    split
    · exact .done fun _ _ => trivial
    refine .bind list fun reply => ?_
    cases reply <;> exact .done fun _ _ => trivial

end Calls

/-! ## Runs -/

section Runs

variable {crew : Crew} {first : Maps}

/-- Thread by thread, the calls of a run. -/
def Crew.starts (crew : Crew) (thread : Nat) (program : Program Api Capacity.Outcome) : Prop :=
  program = (crew.calls thread).program

theorem call_triple (thread : Nat) :
    crew.Triple first thread (fun _ => True) (crew.calls thread).program fun _ _ => True := by
  have own := crew.named thread
  have handler (o : Operator) (own : o.config.name = crew.name) {id : String} {program : Program Calls (Option GoError)}
      (writer : Writer id program) :
      crew.Triple first thread (fun _ => True) (program.interpret (o.stepCall ∅)) fun _ _ => True :=
    of_workers (writer_triple own writer)
  cases call : crew.calls thread with
  | desiredRunnerCount o count =>
    rw [call] at own
    exact .bind (handleDesiredRunnerCount_triple own call) fun _ => .done fun _ _ => trivial
  | tick o =>
    rw [call] at own
    exact .bind (tick_triple own call) fun _ => .done fun _ _ => trivial
  | drained o =>
    rw [call] at own
    exact .bind (drained_triple own) fun _ => .done fun _ _ => trivial
  | jobStarted o j =>
    rw [call] at own
    exact .bind (handler o own (.jobStarted j rfl)) fun _ => .done fun _ _ => trivial
  | jobCompleted o j =>
    rw [call] at own
    exact .bind (handler o own (.jobCompleted j rfl)) fun _ => .done fun _ _ => trivial

/-- The runs of a crew from a cluster that holds `first`. -/
abbrev Crew.Run (crew : Crew) (first : Maps) (system : System Api Site Capacity.Outcome) : Prop :=
  System.Reachable crew.rules.semantics (fun _ _ => False) crew.starts crew.together (Initial crew first) system

/-- The log of every run is a chronicle. -/
theorem run_kept {system : System Api Site Capacity.Outcome} (run : crew.Run first system) : Kept crew first system.world := by
  have safe : Rely.SystemSafe (rely crew first) crew.rules.semantics (fun _ _ _ => True) system := by
    refine Rely.reachable_safe (fun w initial => initial.kept) (fun _ _ _ moved => moved.elim) ?_ run
    rintro thread w program kept rfl
    exact (call_triple thread).safe (fun _ => Rely.stable_pure True) trivial
  exact safe.invariant

end Runs

/-! ## Played runs -/

section Replay

variable (crew : Crew)

/-- The log after a call outside the cluster; every create call registers its runner. -/
def logOf (thread : Nat) : (request : ApiRequest) → ApiReply request → Log → Log
  | .pollInterruptions, reply, log => .polled thread reply :: log
  | .provider interruptions request, reply, log =>
    match created request with
    | some a => .registered a.id :: .asked thread interruptions request reply :: log
    | none => .asked thread interruptions request reply :: log
  | .deregisterRunner id, reply, log => .deregistered thread id reply :: log
  | .note (.examined id now), _, log => .examined thread id now :: log
  | _, _, log => log

/-- Requests to the cluster succeed; the other services answer as given. -/
def Crew.script (now : Nat → Site → Time) (reply : Nat → (request : ApiRequest) → Site → ApiReply request)
    (answers : ∀ thread interruptions request w,
      crew.answers thread interruptions request (reply thread (.provider interruptions request) w))
    (thread : Nat) : Script crew.rules thread where
  now := now thread
  shown := fun _ => trivial
  removes := fun _ _ => true
  removable := fun _ _ _ => trivial
  reply := reply thread
  next := fun request w => logOf thread request (reply thread request w) w.history
  outside := by
    intro w request
    cases request with
    | provider interruptions request =>
      refine ⟨answers thread interruptions request w, ?_⟩
      unfold logOf
      dsimp only
      split
      · exact .inr ⟨_, ‹_›, rfl⟩
      · exact .inl rfl
    | note moment => cases moment <;> rfl
    | getMap | createMap | updateMap | deleteMap | listMaps | now | newUUID | readCatalog | observePrice
    | pollInterruptions | deregisterRunner | attemptJobs | rerunFailedJobs | rangeOrder | schedule => rfl

/-- Some calls made in turn from a cluster, each up to a number of requests. -/
def Crew.played (scripts : (thread : Nat) → Script crew.rules thread) (turns : List (Nat × Nat)) (start : Site) :
    System Api Site Capacity.Outcome where
  world := System.playAll (fun thread => (scripts thread).answer)
    (turns.map fun turn => (turn.1, turn.2, (crew.calls turn.1).program)) start
  threads := fun _ => none

theorem Crew.played_run (scripts : (thread : Nat) → Script crew.rules thread) (turns : List (Nat × Nat)) {start : Site}
    {first : Maps} (initial : Initial crew first start) : crew.Run first (crew.played scripts turns start) := by
  refine System.Reachable.playAll (fun thread => (scripts thread).honest) _ (fun turn member => ?_) (.initial _ initial)
  obtain ⟨_, _, rfl⟩ := List.mem_map.mp member
  rfl

/-- A cluster without any map. -/
theorem Initial.empty : Initial crew ∅ { history := [] } where
  wellFormed := fun _ _ found => by cases found
  maps := rfl
  history := rfl
  pending := fun _ _ found => by cases found

end Replay

end RunnerScout.Ticks
