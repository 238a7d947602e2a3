import RunnerScout.Capacity.Slots
import RunnerScout.Wireguard.Overlay

/-! # Overlay addresses

Every allocation of a mesh gets its overlay address when it is admitted and keeps it.
A call takes its addresses from those neither a record nor a pending admission has, so
no two allocations alive share one.
-/

namespace RunnerScout.Capacity

open Interaction Lifecycle Operator State Wireguard

variable {id address : String} {o : Operator} {f : Fleet} {allocs : List Allocation}

/-! ## Addresses in use -/

/-- The overlay address of an allocation that is alive. -/
def overlayOf (name : String) (maps : Maps) (id : String) : Option String :=
  match maps.record id with
  | some r => if r.phase.terminal then none else some r.wireGuardOverlayAddress
  | none => ((maps.fleet name).pending.lookup id).map Allocation.wireGuardOverlayAddress

/-- The address of an allocation, as its record or its pending admission has it. -/
inductive Overlay (b : Books) (id : String) : String → Prop where
  | record (r : Allocation) (found : b.record id = some r) : Overlay b id r.wireGuardOverlayAddress
  | pending (a : Allocation) (found : b.fleet.pending.lookup id = some a) : Overlay b id a.wireGuardOverlayAddress

/-- What the maps alone say. -/
def mapBooks (name : String) (maps : Maps) : Books := ⟨maps.fleet name, maps.record, 0, []⟩

theorem overlay_of_overlayOf {name : String} {maps : Maps} (assigned : overlayOf name maps id = some address) :
    Live (mapBooks name maps) id ∧ Overlay (mapBooks name maps) id address := by
  unfold overlayOf at assigned
  split at assigned
  · rename_i r found
    split at assigned
    · cases assigned
    · rename_i alive
      cases assigned
      exact ⟨.inr ⟨r, found, Bool.eq_false_iff.mpr alive⟩, .record r found⟩
  · rename_i absent
    obtain ⟨a, found, rfl⟩ := Option.map_eq_some_iff.mp assigned
    exact ⟨.inl ⟨GoMap.mem_iff.mpr ⟨a, found⟩, absent⟩, .pending a found⟩

/-! ## A batch of addresses -/

/-- The addresses of a batch are new, to the pool and to each other. -/
theorem overlayAddresses_fresh {Good : String → Prop}
    (next : ∀ taken address, o.nextOverlayAddress o.config.networkOverlayCIDRs taken = .ok address →
      Good address ∧ address ∉ taken) : ∀ {n : Nat} {taken addresses : List String},
    o.overlayAddresses n taken = .ok addresses →
      addresses.Nodup ∧ ∀ address ∈ addresses, Good address ∧ address ∉ taken
  | 0, _, _, found => by
    cases found
    exact ⟨List.nodup_nil, fun _ member => absurd member List.not_mem_nil⟩
  | n + 1, taken, addresses, found => by
    unfold Operator.overlayAddresses at found
    split at found
    · cases found
    rename_i first picked
    split at found
    · cases found
    rename_i rest more
    cases found
    obtain ⟨good, free⟩ := next taken first picked
    obtain ⟨nodup, fresh⟩ := overlayAddresses_fresh next more
    refine ⟨List.nodup_cons.mpr ⟨fun again => (fresh first again).2 List.mem_cons_self, nodup⟩, fun address member => ?_⟩
    obtain rfl | later := List.mem_cons.mp member
    · exact ⟨good, free⟩
    · exact ⟨(fresh address later).1, fun taken => (fresh address later).2 (List.mem_cons_of_mem _ taken)⟩

/-! ## Moves -/

/-- One address for each allocation, from the ranges, and no address for two alive. -/
structure Meshed (profile : String) (Good : String → Prop) (b : Books) : Prop where
  recordProfile : ∀ id r, b.record id = some r → r.networkProfile = profile
  pendingProfile : ∀ id a, b.fleet.pending.lookup id = some a → a.networkProfile = profile
  good : ∀ id address, Overlay b id address → Good address
  one : ∀ id first second, Overlay b id first → Overlay b id second → first = second
  distinct : ∀ id other address, Live b id → Live b other → Overlay b id address → Overlay b other address → id = other

section Moves

variable {s : Setting} {thread : Nat} {b after : Books} {profile : String} {Good : String → Prop}

/-- Nothing is admitted: what is alive was, with the address it has. -/
structure Settles (b after : Books) : Prop where
  live : ∀ id, Live after id → Live b id
  overlay : ∀ id address, Overlay after id address → Overlay b id address
  pending : ∀ id a, after.fleet.pending.lookup id = some a → b.fleet.pending.lookup id = some a

theorem Settles.refleet (kept : ∀ id a, f.pending.lookup id = some a → b.fleet.pending.lookup id = some a) :
    Settles b { b with fleet := f } where
  live := fun id alive => alive.imp_left fun ⟨waiting, absent⟩ => by
    obtain ⟨a, found⟩ := GoMap.mem_iff.mp waiting
    exact ⟨GoMap.mem_iff.mpr ⟨a, kept id a found⟩, absent⟩
  overlay := fun id address assigned => by
    cases assigned with
    | record r found => exact .record r found
    | pending a found => exact .pending a (kept id a found)
  pending := kept

/-- One record is rewritten, with the address its allocation has. -/
theorem Settles.rewrite {r : Allocation} (overlay : Overlay b id r.wireGuardOverlayAddress)
    (live : r.phase.terminal = false → Live b id) :
    Settles b { b with record := Function.update b.record id (some r) } where
  live := fun other alive => by
    by_cases same : other = id
    · subst same
      obtain ⟨_, absent⟩ | ⟨r', found, running⟩ := alive
      · simp at absent
      · simp only [Function.update_self, Option.some.injEq] at found
        exact live (found ▸ running)
    · simpa only [Live, Function.update_of_ne same] using alive
  overlay := fun other address assigned => by
    cases assigned with
    | record r' found =>
      by_cases same : other = id
      · subst same
        simp only [Function.update_self, Option.some.injEq] at found
        exact found ▸ overlay
      · simp only [Function.update_of_ne same] at found
        exact .record r' found
    | pending a found => exact .pending a found
  pending := fun _ _ found => found

/-- Every move but a batch settles. -/
theorem Move.settles (serial : s.Serial) (sound : Sound s b) (move : Move s thread b after) :
    Settles b after ∨ ∃ o count f allocs gate batch f', s.calls thread = .desiredRunnerCount o count ∧
      b.fleet.bind o.config = .ok f ∧ Tallied b allocs ∧ Timely s b gate batch ∧
      Admits o count f allocs gate batch f' ∧ after = { b with fleet := f' } := by
  have nothing (changed : Books) (fleet : changed.fleet = b.fleet) (record : changed.record = b.record) :
      Settles b changed := by
    refine ⟨fun id alive => ?_, fun id address assigned => ?_, fun id a found => fleet ▸ found⟩
    · simpa only [Live, fleet, record] using alive
    · cases assigned with
      | record r found => exact .record r (record ▸ found)
      | pending a found => exact .pending a (fleet ▸ found)
  cases move with
  | idle => exact .inl (nothing _ rfl rfl)
  | clock t shown => exact .inl (nothing _ rfl rfl)
  | draw id unused notFleet => exact .inl (nothing _ rfl rfl)
  | materialise id a waiting absent fresh entry =>
    obtain ⟨e, found, takesOver⟩ := entry serial
    refine .inl (.rewrite ?_ fun _ => .inl ⟨waiting, absent⟩)
    rw [takesOver.overlay]
    exact .pending e found
  | advance id r later found advances dated =>
    refine .inl (.rewrite ?_ fun running => .inr ⟨r, found, ?_⟩)
    · rw [advances.overlay]
      exact .record r found
    · rw [← Bool.not_eq_true]
      intro terminal
      rw [(advances.final terminal).1, terminal] at running
      cases running
  | migrate f pending bound kept dropped => exact .inl (.refleet kept)
  | grant o count f f' allocs gate batch call bound tallied timely admits =>
    exact .inr ⟨o, count, f, allocs, gate, batch, f', call, bound, tallied, timely, admits, rfl⟩
  | retry f used reruns bound =>
    rw [bind_frame bound]
    exact .inl (.refleet fun _ _ found => found)
  | prune f ids serial bound due =>
    rw [bind_frame bound]
    exact .inl (.refleet fun _ _ found => found)
  | remove id r serial found prunable marked removable =>
    -- a pruned allocation is not pending, so it does not come back to life
    have waits := (sound.prunedCreated id marked).2
    refine .inl ⟨fun other alive => ?_, fun other address assigned => ?_, fun _ _ known => known⟩
    · by_cases same : other = id
      · subst same
        obtain ⟨waiting, _⟩ | ⟨r', known, _⟩ := alive
        · exact absurd waiting waits
        · simp at known
      · simpa only [Live, Function.update_of_ne same] using alive
    · cases assigned with
      | record r' known =>
        by_cases same : other = id
        · subst same
          simp at known
        · simp only [Function.update_of_ne same] at known
          exact .record r' known
      | pending a known => exact .pending a known

/-- A record written takes its profile from the one before it or from its pending admission. -/
theorem Move.recordProfile (serial : s.Serial) (move : Move s thread b after) (meshed : Meshed profile Good b)
    {r : Allocation} (found : after.record id = some r) : r.networkProfile = profile := by
  have rewritten {other : String} {r' : Allocation} (same : r'.networkProfile = profile)
      (known : Function.update b.record other (some r') id = some r) : r.networkProfile = profile := by
    by_cases equal : id = other
    · subst equal
      rw [Function.update_self, Option.some.injEq] at known
      exact known ▸ same
    · rw [Function.update_of_ne equal] at known
      exact meshed.recordProfile id r known
  cases move with
  | materialise other a waiting absent fresh entry =>
    obtain ⟨e, pending, takesOver⟩ := entry serial
    exact rewritten (takesOver.profile.trans (meshed.pendingProfile other e pending)) found
  | advance other r' later known advances dated =>
    exact rewritten (advances.profile.trans (meshed.recordProfile other r' known)) found
  | remove other r' serial known prunable marked removable =>
    by_cases equal : id = other
    · subst equal
      simp at found
    · simp only [Function.update_of_ne equal] at found
      exact meshed.recordProfile id r found
  | idle | clock | draw | migrate | grant | retry | prune => exact meshed.recordProfile id r found

/-- Every address in use is one the pool of a call leaves out. -/
theorem Meshed.taken (meshed : Meshed profile Good b) (bound : b.fleet.bind o.config = .ok f)
    (tallied : Tallied b allocs) (same : o.config.networkProfile = profile)
    (nonempty : ∀ address, Good address → address ≠ "") (alive : Live b id) (assigned : Overlay b id address) :
    address ∈ o.overlayTaken allocs f := by
  have present := nonempty address (meshed.good id address assigned)
  have waiting (a : Allocation) (found : b.fleet.pending.lookup id = some a) : address ∈ o.overlayTaken allocs f := by
    obtain rfl := meshed.one id _ _ assigned (.pending a found)
    have entry : (⟨id, a⟩ : (_ : String) × Allocation) ∈ f.pending.entries := by
      rw [bind_frame bound]
      exact AList.mem_lookup_iff.mp found
    refine List.mem_map.mpr ⟨a, List.mem_append_right _ (List.mem_filter.mpr ⟨List.mem_map.mpr ⟨_, entry, rfl⟩, ?_⟩), rfl⟩
    simp [meshed.pendingProfile id a found, same, present]
  obtain ⟨pending, _⟩ | ⟨r, found, running⟩ := alive
  · obtain ⟨a, found⟩ := GoMap.mem_iff.mp pending
    exact waiting a found
  obtain listed | pending := tallied.others id (by rw [found]; exact Option.some_ne_none _)
  · obtain ⟨a, member, rfl⟩ := List.mem_map.mp listed
    obtain ⟨r', known, advances⟩ := tallied.known a member
    rw [found] at known
    cases known
    obtain rfl := meshed.one a.id _ _ assigned (.record r found)
    have live : a.phase.terminal = false := by
      rw [← Bool.not_eq_true]
      intro terminal
      rw [(advances.final terminal).1, terminal] at running
      cases running
    refine List.mem_map.mpr ⟨a, List.mem_append_left _ (List.mem_filter.mpr ⟨member, ?_⟩), advances.overlay.symm⟩
    have own : a.networkProfile = o.config.networkProfile :=
      advances.profile.symm.trans ((meshed.recordProfile a.id r found).trans same.symm)
    simp [own, live, ← advances.overlay, present]
  · obtain ⟨a, found⟩ := GoMap.mem_iff.mp pending
    exact waiting a found

/-- The addresses after a batch: those of the batch, and those there were. -/
theorem overlay_grant {count : Int} {f' : Fleet} {gate : Time} {batch : List Slot} (sound : Sound s b)
    (bound : b.fleet.bind o.config = .ok f) (timely : Timely s b gate batch)
    (admits : Admits o count f allocs gate batch f') (assigned : Overlay { b with fleet := f' } id address) :
    (∃ slot ∈ batch, slot.id = id ∧ slot.address = address) ∨ (id ∉ batch.map Slot.id ∧ Overlay b id address) := by
  have unused (member : id ∈ batch.map Slot.id) : id ∉ b.fleet.created := by
    obtain ⟨slot, inside, rfl⟩ := List.mem_map.mp member
    exact timely.unused slot inside
  cases assigned with
  | record r found =>
    have found : b.record id = some r := found
    refine .inr ⟨fun new => unused new (sound.recordCreated id ?_), .record r found⟩
    rw [found]
    exact Option.some_ne_none _
  | pending a found =>
    have nodup : ((admissions o batch).map Prod.fst).Nodup := by rw [admissions_keys]; exact timely.nodup
    simp only [admits.pending, bind_frame bound] at found
    obtain new | ⟨old, known⟩ := GoMap.lookup_insertAll_cases nodup found
    · obtain ⟨slot, member, same⟩ := List.mem_map.mp new
      cases same
      exact .inl ⟨slot, member, rfl, rfl⟩
    · rw [admissions_keys] at old
      exact .inr ⟨old, .pending a known⟩

theorem Meshed.grant (meshed : Meshed profile Good b) (sound : Sound s b) {count : Int} {f' : Fleet} {gate : Time}
    {batch : List Slot} (bound : b.fleet.bind o.config = .ok f) (tallied : Tallied b allocs)
    (timely : Timely s b gate batch) (admits : Admits o count f allocs gate batch f')
    (same : o.config.networkProfile = profile) (mesh : profile ≠ "")
    (nonempty : ∀ address, Good address → address ≠ "")
    (next : ∀ taken address, o.nextOverlayAddress o.config.networkOverlayCIDRs taken = .ok address →
      Good address ∧ address ∉ taken) : Meshed profile Good { b with fleet := f' } := by
  -- the batch has addresses of its own
  have fresh : (batch.map Slot.address).Nodup ∧
      ∀ slot ∈ batch, Good slot.address ∧ slot.address ∉ o.overlayTaken allocs f := by
    by_cases some : batch = []
    · subst some
      exact ⟨List.nodup_nil, fun _ member => absurd member List.not_mem_nil⟩
    · obtain ⟨nodup, free⟩ := overlayAddresses_fresh next (admits.addressed some (same ▸ mesh))
      exact ⟨nodup, fun slot member => free _ (List.mem_map_of_mem member)⟩
  have slots (first second : Slot) (one : first ∈ batch) (two : second ∈ batch) :
      (first.id = second.id → first = second) ∧ (first.address = second.address → first = second) :=
    ⟨fun equal => List.inj_on_of_nodup_map timely.nodup one two equal,
      fun equal => List.inj_on_of_nodup_map fresh.1 one two equal⟩
  have cases_ {id address : String} (assigned : Overlay { b with fleet := f' } id address) :=
    overlay_grant sound bound timely admits assigned
  have alive {id : String} (live : Live { b with fleet := f' } id) (old : id ∉ batch.map Slot.id) : Live b id := by
    refine live.imp_left fun ⟨waiting, absent⟩ => ⟨?_, absent⟩
    simp only [admits.pending, bind_frame bound] at waiting
    rw [GoMap.mem_insertAll, admissions_keys] at waiting
    exact waiting.resolve_left old
  refine ⟨meshed.recordProfile, fun id a found => ?_, fun id address assigned => ?_,
    fun id first second one two => ?_, fun id other address one two first second => ?_⟩
  · have nodup : ((admissions o batch).map Prod.fst).Nodup := by rw [admissions_keys]; exact timely.nodup
    simp only [admits.pending, bind_frame bound] at found
    obtain new | ⟨_, known⟩ := GoMap.lookup_insertAll_cases nodup found
    · obtain ⟨slot, _, equal⟩ := List.mem_map.mp new
      cases equal
      exact same
    · exact meshed.pendingProfile id a known
  · obtain ⟨slot, member, _, rfl⟩ | ⟨_, old⟩ := cases_ assigned
    · exact (fresh.2 slot member).1
    · exact meshed.good id address old
  · obtain ⟨slot, member, rfl, rfl⟩ | ⟨old, known⟩ := cases_ one
    · obtain ⟨slot', member', equal, rfl⟩ | ⟨notNew, _⟩ := cases_ two
      · rw [(slots slot' slot member' member).1 equal]
      · exact absurd (List.mem_map_of_mem member) notNew
    · obtain ⟨slot', member', rfl, _⟩ | ⟨_, known'⟩ := cases_ two
      · exact absurd (List.mem_map_of_mem member') old
      · exact meshed.one id first second known known'
  · obtain ⟨slot, member, rfl, rfl⟩ | ⟨old, known⟩ := cases_ first
    · obtain ⟨slot', member', rfl, equal⟩ | ⟨old', known'⟩ := cases_ second
      · rw [(slots slot' slot member' member).2 equal]
      · exact absurd (meshed.taken bound tallied same nonempty (alive two old') known') (fresh.2 slot member).2
    · obtain ⟨slot', member', rfl, rfl⟩ | ⟨old', known'⟩ := cases_ second
      · exact absurd (meshed.taken bound tallied same nonempty (alive one old) known) (fresh.2 slot' member').2
      · exact meshed.distinct id other address (alive one old) (alive two old') known known'

end Moves

/-! ## Whole runs -/

/-- What a write admits: nothing, or all a call asks for, with an address each. -/
def AdmitsWhole (s : Setting) (e : Entry) : Prop :=
  (∀ id ∈ (e.after.fleet s.name).pending, id ∈ (e.before.fleet s.name).pending) ∨
    ∃ o count f allocs gate batch, s.calls e.thread = .desiredRunnerCount o count ∧
      (e.before.fleet s.name).bind o.config = .ok f ∧ Tallied (mapBooks s.name e.before) allocs ∧
      granted o count f allocs gate = some (batch.length : Int) ∧
      o.overlayAddresses batch.length (o.overlayTaken allocs f) = .ok (batch.map Slot.address) ∧
      (e.after.fleet s.name).pending = GoMap.insertAll (admissions o batch) (e.before.fleet s.name).pending

/-- One network profile with its ranges for every call. -/
structure Mesh (s : Setting) (netip : Netip) (profile : String) (cidrs : List String) : Prop where
  named : profile ≠ ""
  profile : ∀ thread, (s.config thread).networkProfile = profile
  ranges : ∀ thread, (s.config thread).networkOverlayCIDRs = cidrs
  picks : ∀ thread, (s.calls thread).operator.nextOverlayAddress = nextOverlayAddress netip

section Runs

variable {s : Setting} {netip : Netip} {profile : String} {cidrs : List String}

/-- What a write left behind: addresses that are still those of their allocations. -/
structure Lasting (s : Setting) (w : Cluster) (e : Entry) : Prop where
  fixed : ∀ id address, Overlay (mapBooks s.name e.after) id address →
    id ∈ (s.books w).fleet.created ∧ ∀ current, Overlay (s.books w) id current → current = address
  whole : AdmitsWhole s e

theorem overlay_mapBooks {w : Cluster} :
    Overlay (mapBooks s.name w.maps) id address ↔ Overlay (s.books w) id address := by
  constructor
  · intro assigned
    cases assigned with
    | record r found => exact .record r found
    | pending a found => exact .pending a found
  · intro assigned
    cases assigned with
    | record r found => exact .record r found
    | pending a found => exact .pending a found

theorem Overlay.created {b : Books} (sound : Sound s b) (assigned : Overlay b id address) :
    id ∈ b.fleet.created := by
  cases assigned with
  | record r found => exact sound.recordCreated id (by rw [found]; exact Option.some_ne_none _)
  | pending a found =>
    exact sound.pendingCreated id (GoMap.mem_iff.mpr ⟨a, found⟩)

theorem Meshed.move (serial : s.Serial) (mesh : Mesh s netip profile cidrs) {thread : Nat} {b after : Books}
    (sound : Sound s b) (meshed : Meshed profile (InRanges netip cidrs) b) (move : Move s thread b after) :
    Meshed profile (InRanges netip cidrs) after := by
  obtain settles | ⟨o, count, f, allocs, gate, batch, f', call, bound, tallied, timely, admits, rfl⟩ :=
    move.settles serial sound
  · exact ⟨fun id r found => move.recordProfile serial meshed found,
      fun id a found => meshed.pendingProfile id a (settles.pending id a found),
      fun id address assigned => meshed.good id address (settles.overlay id address assigned),
      fun id first second one two => meshed.one id first second (settles.overlay id _ one) (settles.overlay id _ two),
      fun id other address one two first second => meshed.distinct id other address (settles.live id one)
        (settles.live other two) (settles.overlay id _ first) (settles.overlay other _ second)⟩
  · have operator : (s.calls thread).operator = o := by rw [call]; rfl
    have own : o.config.networkProfile = profile := by
      rw [← mesh.profile thread, Setting.config, operator]
    have ranges : o.config.networkOverlayCIDRs = cidrs := by
      rw [← mesh.ranges thread, Setting.config, operator]
    have picks := mesh.picks thread
    rw [operator] at picks
    refine meshed.grant sound bound tallied timely admits own mesh.named ?_ ?_
    · rintro _ ⟨_, _, _, a, _, _, rfl⟩
      exact netip.string_ne_empty a
    · intro taken address found
      rw [picks, ranges] at found
      exact nextOverlayAddress_free found

theorem preserved_lasting (serial : s.Serial) (mesh : Mesh s netip profile cidrs) :
    Preserved s fun w => Meshed profile (InRanges netip cidrs) (s.books w) ∧ ∀ e ∈ w.history, Lasting s w e := by
  rintro thread w after wellFormed sound ⟨meshed, lasting⟩ act
  have still := meshed.move serial mesh sound act.move
  refine ⟨still, fun e member => ?_⟩
  have settled := act.move.settles serial sound
  have old (e : Entry) (earlier : e ∈ w.history) : Lasting s after e := by
    refine ⟨fun id address assigned => ?_, (lasting e earlier).whole⟩
    obtain ⟨created, fixed⟩ := (lasting e earlier).fixed id address assigned
    obtain ⟨stamp, found⟩ := GoMap.mem_iff.mp created
    refine ⟨GoMap.mem_iff.mpr ⟨stamp, act.move.stamp found⟩, fun current now => ?_⟩
    obtain settles | ⟨o, count, f, allocs, gate, batch, f', _, bound, _, timely, admits, equal⟩ := settled
    · exact fixed current (settles.overlay id current now)
    · rw [equal] at now
      obtain ⟨slot, inside, rfl, _⟩ | ⟨_, before⟩ := overlay_grant sound bound timely admits now
      · exact absurd created (timely.unused slot inside)
      · exact fixed current before
  obtain ⟨_, same⟩ | logged := act.logged
  · exact old e (same ▸ member)
  rw [logged] at member
  obtain rfl | earlier := List.mem_cons.mp member
  · refine ⟨fun id address assigned => ?_, ?_⟩
    · have now := overlay_mapBooks.mp assigned
      exact ⟨now.created (act.move.sound sound), fun current other => still.one id _ _ other now⟩
    · obtain settles | ⟨o, count, f, allocs, gate, batch, f', call, bound, tallied, _, admits, equal⟩ := settled
      · refine .inl fun id waiting => ?_
        obtain ⟨a, found⟩ := GoMap.mem_iff.mp waiting
        exact GoMap.mem_iff.mpr ⟨a, settles.pending id a found⟩
      · have fleet : after.maps.fleet s.name = f' := congrArg Books.fleet equal
        have pending : f.pending = (w.maps.fleet s.name).pending := by rw [bind_frame bound]; rfl
        have operator : (s.calls thread).operator = o := by rw [call]; rfl
        have own : o.config.networkProfile ≠ "" := by
          have named := mesh.profile thread
          rw [Setting.config, operator] at named
          rw [named]
          exact mesh.named
        by_cases none : batch = []
        · subst none
          refine .inl fun id waiting => ?_
          simp only [fleet, admits.pending, pending] at waiting
          exact waiting
        · refine .inr ⟨o, count, f, allocs, gate, batch, call, bound, ⟨tallied.nodup, tallied.known, tallied.others⟩,
            admits.whole none, admits.addressed none own, ?_⟩
          simp only [fleet, admits.pending, pending]
  · exact old e earlier

/-- Under one network profile, in every run of calls one at a time: no two allocations
    alive share an overlay address, each has one of the configured ranges and keeps it, and
    a batch is admitted with an address for every allocation or not at all. -/
theorem overlay_addresses_unique (serial : s.Serial) (mesh : Mesh s netip profile cidrs)
    {system : System Api Cluster Outcome} (run : s.Run system) :
    (∀ id other address, overlayOf s.name system.world.maps id = some address →
      overlayOf s.name system.world.maps other = some address → id = other) ∧
    (∀ id address, overlayOf s.name system.world.maps id = some address →
      address ≠ "" ∧ InRanges netip cidrs address) ∧
    (∀ e ∈ system.world.history, ∀ id address current, overlayOf s.name e.after id = some address →
      overlayOf s.name system.world.maps id = some current → current = address) ∧
    ∀ e ∈ system.world.history, AdmitsWhole s e := by
  have safe := run_safe (preserved_lasting serial mesh) (fun w initial => by
    obtain ⟨fleet, record⟩ := initial.books
    have nothing (id address : String) : ¬ Overlay (s.books w) id address := by
      intro assigned
      cases assigned with
      | record r found =>
        rw [record] at found
        cases found
      | pending a found =>
        rw [fleet] at found
        cases found
    refine ⟨⟨?_, ?_, ?_, ?_, ?_⟩, ?_⟩
    · exact fun id r found => by rw [record] at found; cases found
    · exact fun id a found => by rw [fleet] at found; cases found
    · exact fun id address assigned => absurd assigned (nothing id address)
    · exact fun id first second assigned => absurd assigned (nothing id first)
    · exact fun id other address _ _ assigned => absurd assigned (nothing id address)
    · rw [initial.history]
      exact fun e member => absurd member List.not_mem_nil) run
  obtain ⟨meshed, lasting⟩ := safe.invariant.extra
  have now {id address : String} (assigned : overlayOf s.name system.world.maps id = some address) :
      Live (s.books system.world) id ∧ Overlay (s.books system.world) id address := by
    obtain ⟨alive, overlay⟩ := overlay_of_overlayOf assigned
    exact ⟨alive, overlay_mapBooks.mp overlay⟩
  refine ⟨fun id other address one two => ?_, fun id address assigned => ?_,
    fun e member id address current before after => ?_, fun e member => (lasting e member).whole⟩
  · exact meshed.distinct id other address (now one).1 (now two).1 (now one).2 (now two).2
  · have good := meshed.good id address (now assigned).2
    refine ⟨?_, good⟩
    obtain ⟨_, _, _, a, _, _, rfl⟩ := good
    exact netip.string_ne_empty a
  · exact ((lasting e member).fixed id address (overlay_of_overlayOf before).2).2 current (now after).2

end Runs

/-! ### A mesh of two -/

def meshOperator : Operator where
  config := { smallConfig with
    maxRunners := 2, budgetDailyMicros := 0, networkProfile := "mesh", networkOverlayCIDRs := ["10.42.0.0/30"] }
  nextOverlayAddress := nextOverlayAddress smallNetip

def meshCalls : Nat → Call
  | 0 => .desiredRunnerCount meshOperator 2
  | _ => .tick meshOperator

theorem meshCalls_operator (thread : Nat) : (meshCalls thread).operator = meshOperator := by
  unfold meshCalls
  split <;> rfl

def meshSetting : Setting :=
  Setting.alone "ci" meshCalls fun thread => by rw [meshCalls_operator]; rfl

/-- Both addresses of the range are given out, and the allocations are recorded. -/
def meshedRun : System Api Cluster Outcome :=
  meshSetting.played (Setting.plain _ (fun _ t => max t (2 * second)) (fun _ t => le_max_left t _) false
    fun removes => Bool.noConfusion removes) [(0, 100), (1, 30)]

theorem overlay_addresses_unique_meshedRun :
    Mesh meshSetting smallNetip "mesh" ["10.42.0.0/30"] ∧ meshSetting.Run meshedRun ∧
      (live "ci" meshedRun.world.maps).card = 2 ∧
      ∀ id other address, overlayOf "ci" meshedRun.world.maps id = some address →
        overlayOf "ci" meshedRun.world.maps other = some address → id = other := by
  have operator (thread : Nat) : (meshSetting.calls thread).operator = meshOperator := meshCalls_operator thread
  have mesh : Mesh meshSetting smallNetip "mesh" ["10.42.0.0/30"] := by
    refine ⟨by decide, fun thread => ?_, fun thread => ?_, fun thread => ?_⟩
    · rw [Setting.config, operator]
      rfl
    · rw [Setting.config, operator]
      rfl
    · rw [operator]
      rfl
  have run : meshSetting.Run meshedRun := Setting.played_run _ _ _
  exact ⟨mesh, run, by decide +kernel, (overlay_addresses_unique (fun _ _ overlap => overlap) mesh run).1⟩

end RunnerScout.Capacity
