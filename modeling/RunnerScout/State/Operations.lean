import RunnerScout.State.Cluster

/-! # Rules for the store and the fleet

One rule for each operation of `state.Kubernetes` and of the fleet ConfigMap, under
any interference that only moves versions forward: verifying a program, a save is
the single moment at which its update is applied, on the very record or fleet that
was read.
-/

namespace RunnerScout.State

open Interaction Program Lifecycle Operator

variable {name owner kind : String} {s : Kubernetes} {cm : ConfigMap} {x : Allocation} {o : Operator}

structure Respects {γ : Type} (rules : Rules γ) (rely : Rely (World γ)) : Prop where
  wellFormed : ∀ w, rely.invariant w → WellFormed rules.name w
  evolves : ∀ thread before after, rely.rely thread before after → Evolves before after

section Operations

variable {γ : Type} {rules : Rules γ} {rely : Rely (World γ)} {thread : Nat} {pre : World γ → Prop}

/-- A step that keeps the invariant and what the threads it runs with rely on. -/
def Keeps (rely : Rely (World γ)) (thread : Nat) (w after : World γ) : Prop :=
  rely.invariant after ∧ ∀ other, rely.together thread other → rely.rely other w after

theorem seen_stable (respects : Respects rules rely) (cm : ConfigMap) : rely.Stable thread (Seen cm) :=
  fun before after _ relied seen => seen.evolves (respects.evolves thread before after relied)

theorem recordSeen_stable (respects : Respects rules rely) (a : Allocation) : rely.Stable thread (RecordSeen a) :=
  fun before after _ relied seen => seen.evolves (respects.evolves thread before after relied)

/-- A request that changes nothing. -/
theorem triple_read {request : ApiRequest} (stable : rely.Stable thread pre)
    (reads : ∀ w reply after, rules.semantics thread w request reply after → after = w) :
    rely.Triple rules.semantics thread pre (ask (S := Api) request) fun reply w =>
      rely.invariant w ∧ pre w ∧ rules.semantics thread w request reply w := by
  refine .request stable fun w reply after kept holds executed => ?_
  obtain rfl := reads w reply after executed
  exact ⟨kept, fun _ _ => rely.refl _ _, kept, holds, executed⟩

theorem getMap_reads (w : World γ) (reply : ApiReply (.getMap name)) (after : World γ)
    (executed : rules.semantics thread w (.getMap name) reply after) : after = w := by
  cases reply <;> exact executed.1

theorem listMaps_reads (w : World γ) (reply : ApiReply (.listMaps owner kind)) (after : World γ)
    (executed : rules.semantics thread w (.listMaps owner kind) reply after) : after = w := by
  cases reply
  · exact executed
  · exact executed.1

theorem load_triple {id : String} {post : Except GoError Allocation → World γ → Prop}
    (stable : rely.Stable thread pre) (failed : ∀ e w, rely.invariant w → pre w → post (.error e) w)
    (loaded : ∀ a w, rely.invariant w → pre w → w.record id = some a → a.id = id → post (.ok a) w) :
    rely.Triple rules.semantics thread pre (s.load id) post := by
  refine .bind (triple_read stable getMap_reads) fun reply => ?_
  cases reply with
  | error e => exact .done fun w ⟨kept, holds, _⟩ => failed e w kept holds
  | ok cm =>
    dsimp only
    split
    · exact .done fun w ⟨kept, holds, _⟩ => failed _ w kept holds
    split
    · exact .done fun w ⟨kept, holds, _⟩ => failed _ w kept holds
    rename_i a decoded
    split
    · exact .done fun w ⟨kept, holds, _⟩ => failed _ w kept holds
    rename_i named
    refine .done fun w ⟨kept, holds, _, found⟩ => loaded _ w kept holds ?_ (by simpa using named)
    simp only [World.record, Maps.record, found, Option.bind_some, decoded]

/-! ### Listing -/

/-- A listing: every record once, as it is stored. -/
structure Lists (w : World γ) (allocs : List Allocation) : Prop where
  sound : ∀ a ∈ allocs, w.record a.id = some a
  complete : ∀ id a, w.record id = some a → a ∈ allocs
  nodup : (allocs.map Allocation.id).Nodup

def Decodes (cm : ConfigMap) (a : Allocation) : Prop :=
  ∃ b, decodeAllocation cm = .ok b ∧ b.id = cm.name ∧ a = { b with revision := cm.resourceVersion }

theorem decodeAll_spec : ∀ {items : List ConfigMap} {allocs : List Allocation},
    Kubernetes.decodeAll items = .ok allocs →
    (∀ a ∈ allocs, ∃ cm ∈ items, Decodes cm a) ∧ (∀ cm ∈ items, ∃ a ∈ allocs, Decodes cm a) ∧
      allocs.map Allocation.id = items.map ConfigMap.name
  | [], allocs, decoded => by
    cases decoded
    simp
  | cm :: rest, allocs, decoded => by
    rw [Kubernetes.decodeAll] at decoded
    split at decoded
    · cases decoded
    rename_i a one
    split at decoded
    · cases decoded
    rename_i named
    split at decoded
    · cases decoded
    rename_i out others
    cases decoded
    have named : a.id = cm.name := by simpa using named
    have here : Decodes cm { a with revision := cm.resourceVersion } := ⟨a, one, named, rfl⟩
    obtain ⟨sound, complete, names⟩ := decodeAll_spec others
    refine ⟨fun x member => ?_, fun x member => ?_, by simp [names, named]⟩
    · obtain rfl | later := List.mem_cons.mp member
      · exact ⟨cm, List.mem_cons_self, here⟩
      · obtain ⟨y, inside, decodes⟩ := sound x later
        exact ⟨y, List.mem_cons_of_mem _ inside, decodes⟩
    · obtain rfl | later := List.mem_cons.mp member
      · exact ⟨_, List.mem_cons_self, here⟩
      · obtain ⟨y, inside, decodes⟩ := complete x later
        exact ⟨y, List.mem_cons_of_mem _ inside, decodes⟩

theorem decodeAll_succeeds : ∀ {items : List ConfigMap},
    (∀ cm ∈ items, ∃ a, StoredRecord a ∧ cm = (⟨name⟩ : Kubernetes).encode a cm.resourceVersion) →
    ∃ allocs, Kubernetes.decodeAll items = .ok allocs
  | [], _ => ⟨[], rfl⟩
  | cm :: rest, genuine => by
    obtain ⟨a, stored, encoded⟩ := genuine cm List.mem_cons_self
    obtain ⟨out, others⟩ := decodeAll_succeeds fun x member => genuine x (List.mem_cons_of_mem _ member)
    have decoded : decodeAllocation cm = .ok a := by
      rw [encoded]
      exact decodeAllocation_encode stored
    have named : a.id = cm.name := by rw [encoded]; rfl
    rw [Kubernetes.decodeAll, decoded]
    simp [named, others]

theorem mem_selected {maps : Maps} :
    cm ∈ selected maps owner kind ↔ (∃ key, maps.lookup key = some cm) ∧
      cm.labels.lookup ownerLabel = some owner ∧ cm.labels.lookup kindLabel = some kind := by
  simp only [selected, List.mem_filter, List.mem_map, Bool.and_eq_true, decide_eq_true_eq]
  refine and_congr_left fun _ => ⟨?_, ?_⟩
  · rintro ⟨entry, member, rfl⟩
    exact ⟨entry.1, AList.mem_lookup_iff.mpr member⟩
  · rintro ⟨key, found⟩
    exact ⟨⟨key, cm⟩, AList.mem_lookup_iff.mp found, rfl⟩

/-- The allocation selector finds the records and nothing else. -/
theorem WellFormed.mem_selected {w : World γ} (wellFormed : WellFormed name w) :
    cm ∈ selected w.maps name "allocation" ↔ ∃ key, w.maps.lookup key = some cm ∧ key ≠ fleetName name := by
  rw [State.mem_selected]
  constructor
  · rintro ⟨⟨key, found⟩, _, kind⟩
    refine ⟨key, found, ?_⟩
    obtain ⟨_, _, none, _⟩ | ⟨notFleet, _⟩ := (wellFormed key cm found).content
    · rw [none] at kind
      cases kind
    · exact notFleet
  · rintro ⟨key, found, notFleet⟩
    obtain ⟨fleet, _⟩ | ⟨_, a, _, _, encoded⟩ := (wellFormed key cm found).content
    · exact absurd fleet notFleet
    · refine ⟨⟨key, found⟩, ?_, ?_⟩ <;> rw [encoded]
      · exact (AList.lookup_insert_ne (by decide)).trans (AList.lookup_insert _)
      · exact AList.lookup_insert _

theorem WellFormed.selected_nodup {w : World γ} (wellFormed : WellFormed name w) :
    ((selected w.maps owner kind).map ConfigMap.name).Nodup := by
  have names : (w.maps.entries.map fun entry => entry.2).map ConfigMap.name = w.maps.keys := by
    rw [List.map_map, AList.keys, List.keys]
    refine List.map_congr_left fun entry member => ?_
    exact (wellFormed entry.1 entry.2 (AList.mem_lookup_iff.mpr member)).named
  refine List.Nodup.sublist (List.Sublist.map _ (List.filter_sublist ..)) ?_
  rw [names]
  exact AList.keys_nodup _

theorem lists_of_decodeAll {w : World γ} (wellFormed : WellFormed rules.name w) {items : List ConfigMap}
    {allocs : List Allocation} (selects : items.Perm (selected w.maps rules.name "allocation"))
    (decoded : Kubernetes.decodeAll items = .ok allocs) : Lists w allocs := by
  obtain ⟨sound, complete, names⟩ := decodeAll_spec decoded
  -- a listed map stands for the record it decodes to
  have listed (cm : ConfigMap) (member : cm ∈ items) (a : Allocation) (decodes : Decodes cm a) :
      w.record a.id = some a := by
    obtain ⟨b, one, named, rfl⟩ := decodes
    obtain ⟨key, found, _⟩ := wellFormed.mem_selected.mp (selects.mem_iff.mp member)
    have same : b.id = key := named.trans (wellFormed key cm found).named
    have known : w.maps.lookup b.id = some cm := same ▸ found
    simp only [World.record, Maps.record, known, Option.bind_some, one]
  refine ⟨fun a member => ?_, fun id a found => ?_, ?_⟩
  · obtain ⟨cm, inside, decodes⟩ := sound a member
    exact listed cm inside a decodes
  · obtain ⟨notFleet, _, cm, known, _⟩ := wellFormed.lookup_of_record found
    have inside : cm ∈ items := selects.mem_iff.mpr (wellFormed.mem_selected.mpr ⟨id, known, notFleet⟩)
    obtain ⟨x, member, decodes⟩ := complete cm inside
    have same : x.id = id := by
      obtain ⟨b, _, named, rfl⟩ := decodes
      exact named.trans (wellFormed id cm known).named
    have here := listed cm inside x decodes
    rw [same, found] at here
    cases here
    exact member
  · rw [names]
    exact (selects.map ConfigMap.name).nodup_iff.mpr wellFormed.selected_nodup

theorem list_triple (respects : Respects rules rely) (own : s.owner = rules.name)
    {post : Except GoError (List Allocation) → World γ → Prop} (stable : rely.Stable thread pre)
    (failed : ∀ e w, rely.invariant w → pre w → post (.error e) w)
    (listed : ∀ allocs w, rely.invariant w → pre w → Lists w allocs → post (.ok allocs) w) :
    rely.Triple rules.semantics thread pre s.list post := by
  refine .bind (triple_read stable listMaps_reads) fun reply => ?_
  cases reply with
  | error e => exact .done fun w ⟨kept, holds, _⟩ => failed e w kept holds
  | ok items =>
    refine .done fun w ⟨kept, holds, _, selects⟩ => ?_
    cases decoded : Kubernetes.decodeAll items with
    | error e => exact failed e w kept holds
    | ok allocs =>
      rw [own] at selects
      exact listed allocs w kept holds (lists_of_decodeAll (respects.wellFormed w kept) selects decoded)

/-! ### Saving -/

/-- Errors of a merge are no sentinels. -/
theorem mergeLoop_error : ∀ {references : List ResourceReference} {m : Merge} {e : GoError},
    mergeLoop references m = .error e → e.wraps = []
  | r :: rest, m, e, failed => by
    rw [mergeLoop] at failed
    split at failed
    · rename_i added
      cases failed
      unfold Merge.add at added
      dsimp only at added
      generalize (if m.set.contains r then m.set else m.set ++ [r]) = set at added
      repeat' split at added
      all_goals first | cases added; rfl | cases added
    · exact mergeLoop_error failed

theorem mergeResources_error {current observed : List ResourceReference} {e : GoError}
    (failed : mergeResources current observed = .error e) : e.wraps = [] := by
  unfold mergeResources at failed
  split at failed
  · rename_i loop
    cases failed
    exact mergeLoop_error loop
  · cases failed

theorem decodeValue_id {versioned : Bool} {value : Document} {a : Allocation}
    (decoded : decodeValue cm versioned value = .ok a) : a.id = cm.name := by
  cases value with
  | fleet f => cases decoded
  | text content => cases decoded
  | allocation b =>
    rw [decodeValue] at decoded
    split at decoded
    · cases decoded
    rename_i named
    repeat' split at decoded
    all_goals cases decoded
    simpa using named

theorem decodeAllocation_id {a : Allocation} (decoded : decodeAllocation cm = .ok a) :
    a.id = cm.name := by
  unfold decodeAllocation at decoded
  split at decoded
  · exact decodeValue_id decoded
  · exact decodeValue_id decoded
  · cases decoded

/-- An update applied at the version read replaces the very map that was read. -/
theorem recordSaved_of_updates {w after : World γ} {previous : Allocation} {current out : ConfigMap}
    {incoming resources : List ResourceReference} {changed : Bool} (present : current.resourceVersion ≠ 0)
    (named : current.name = x.id) (seen : Seen current w) (decoded : decodeAllocation current = .ok previous)
    (checked : incomingResources previous x = .ok incoming)
    (merged : mergeResources [] incoming = .ok (resources, changed)) (updates : rules.Updates thread w
      ((⟨rules.name⟩ : Kubernetes).encode { x with resources := resources, revision := 0 } current.resourceVersion)
      out after) :
    RecordSaved rules thread w x current.resourceVersion
      { x with resources := resources, revision := out.resourceVersion } after := by
  obtain ⟨⟨found, known, version⟩, newer, same, applied⟩ := updates
  obtain rfl : found = current := seen.2 found (by rw [named]; exact known) (version present)
  have record : w.record x.id = some { previous with revision := found.resourceVersion } := by
    have known : w.maps.lookup x.id = some found := known
    simp only [World.record, Maps.record, known, Option.bind_some, decoded]
  have id_eq : x.id = previous.id := named.symm.trans (decodeAllocation_id decoded).symm
  have accepted : acceptSave { previous with revision := found.resourceVersion } x =
      .ok { x with resources := resources, revision := 0 } := by
    have checked : incomingResources { previous with revision := found.resourceVersion } x = .ok incoming := checked
    simp only [acceptSave, checked, merged]
  refine ⟨_, record, ⟨present, rfl, id_eq, Nat.lt_of_le_of_lt seen.1 newer, _, accepted, rfl⟩, newer,
    ⟨rfl, _, changed, merged⟩, ?_⟩
  rw [applied, same]
  rfl

/-- Replacing a record.  The record is read first, and the update is applied only to
    the very map that was read. -/
theorem save_triple (respects : Respects rules rely) (own : s.owner = rules.name) {revision : Revision}
    (present : revision ≠ 0) {post : Except GoError Allocation → World γ → Prop} (stable : rely.Stable thread pre)
    (failed : ∀ e w, rely.invariant w → pre w → post (.error e) w)
    (saves : ∀ w stored after, rely.invariant w → pre w → RecordSaved rules thread w x revision stored after →
      Keeps rely thread w after ∧ post (.ok stored) after ∧ ∀ e, post (.error e) after) :
    rely.Triple rules.semantics thread pre (s.save x revision) post := by
  obtain rfl : s = ⟨rules.name⟩ := by rw [← own]
  unfold Kubernetes.save
  rw [if_neg present]
  refine .bind (triple_read stable getMap_reads) fun reply => ?_
  cases reply with
  | error e => exact .done fun w ⟨kept, holds, _⟩ => failed e w kept holds
  | ok current =>
    dsimp only
    split
    · exact .done fun w ⟨kept, holds, _⟩ => failed _ w kept holds
    split
    · exact .done fun w ⟨kept, holds, _⟩ => failed _ w kept holds
    rename_i version
    obtain rfl : current.resourceVersion = revision := by simpa using version
    split
    · exact .done fun w ⟨kept, holds, _⟩ => failed _ w kept holds
    rename_i previous decoded
    split
    · exact .done fun w ⟨kept, holds, _⟩ => failed _ w kept holds
    rename_i incoming checked
    unfold Kubernetes.write
    dsimp only
    split
    · exact .done fun w ⟨kept, holds, _⟩ => failed _ w kept holds
    rename_i resources changed merged
    rw [if_neg present]
    -- between the two calls, the map read stays what it is at its version
    let middle (w : World γ) : Prop := pre w ∧ Seen current w ∧ current.name = x.id
    let answered (reply : Except GoError ConfigMap) (w : World γ) : Prop :=
      match reply with
      | .ok out => post (.ok { x with resources := resources, revision := out.resourceVersion }) w
      | .error _ => ∀ e, post (.error e) w
    have update : rely.Triple rules.semantics thread middle (ask (S := Api) (.updateMap
        ((⟨rules.name⟩ : Kubernetes).encode { x with resources := resources, revision := 0 } current.resourceVersion)))
        answered := by
      refine .request (stable.and ((seen_stable respects current).and (Rely.stable_pure _))) ?_
      intro w reply after kept ⟨holds, seen, named⟩ executed
      cases reply with
      | ok out =>
        obtain ⟨⟨invariant, others⟩, stored, _⟩ := saves w _ after kept holds
          (recordSaved_of_updates present named seen decoded checked merged executed)
        exact ⟨invariant, others, stored⟩
      | error e =>
        obtain rfl | ⟨out, executed⟩ := executed
        · exact ⟨kept, fun _ _ => rely.refl _ _, fun e => failed e _ kept holds⟩
        obtain ⟨⟨invariant, others⟩, _, lost⟩ := saves w _ after kept holds
          (recordSaved_of_updates present named seen decoded checked merged executed)
        exact ⟨invariant, others, lost⟩
    refine .bind (update.pre_mono fun w ⟨kept, holds, _, found⟩ =>
      ⟨holds, .of_lookup (respects.wellFormed w kept) found, (respects.wellFormed w kept _ _ found).named⟩) fun reply => ?_
    cases reply with
    | ok out => exact .done fun w holds => holds
    | error e =>
      dsimp only
      split <;> exact .done fun w holds => holds _

theorem recordCreated_of_creates {w after : World γ} {out : ConfigMap} {resources : List ResourceReference}
    {changed : Bool} (merged : mergeResources [] x.resources = .ok (resources, changed))
    (creates : rules.Creates thread w
      ((⟨rules.name⟩ : Kubernetes).encode { x with resources := resources, revision := 0 } 0) out after) :
    RecordCreated rules thread w x { x with resources := resources, revision := out.resourceVersion } after := by
  obtain ⟨free, newer, same, applied⟩ := creates
  refine ⟨free, rfl, newer, ⟨rfl, _, changed, merged⟩, ?_⟩
  rw [applied, same]
  rfl

/-- Storing a new record.  A conflict means that its name was taken. -/
theorem create_triple (own : s.owner = rules.name) {post : Except GoError Allocation → World γ → Prop}
    (stable : rely.Stable thread pre)
    (failed : ∀ e w, rely.invariant w → pre w → (errorIs (some e) .conflict = true → w.maps.lookup x.id ≠ none) →
      post (.error e) w)
    (creates : ∀ w stored after, rely.invariant w → pre w → RecordCreated rules thread w x stored after →
      Keeps rely thread w after ∧ post (.ok stored) after ∧ ∀ e, post (.error e) after) :
    rely.Triple rules.semantics thread (fun w => rely.invariant w ∧ pre w) (s.save x 0) post := by
  obtain rfl : s = ⟨rules.name⟩ := by rw [← own]
  unfold Kubernetes.save
  rw [if_pos rfl]
  unfold Kubernetes.write
  split
  · rename_i e unmerged
    refine .done fun w ⟨kept, holds⟩ => failed e w kept holds fun conflict => ?_
    simp [errorIs, mergeResources_error unmerged] at conflict
  rename_i resources changed merged
  dsimp only
  rw [if_pos rfl]
  let answered (reply : Except GoError ConfigMap) (w : World γ) : Prop :=
    match reply with
    | .ok out => post (.ok { x with resources := resources, revision := out.resourceVersion }) w
    | .error e =>
      ((errorIs (some e) .conflict || errorIs (some e) .alreadyExists) = false →
        post (.error e) w) ∧ ((errorIs (some e) .conflict || errorIs (some e) .alreadyExists) = true →
        post (.error errConflict) w)
  have create : rely.Triple rules.semantics thread (fun w => rely.invariant w ∧ pre w)
      (ask (S := Api) (.createMap
        ((⟨rules.name⟩ : Kubernetes).encode { x with resources := resources, revision := 0 } 0))) answered := by
    refine .request (fun before after kept relied holds => ⟨kept, stable before after kept relied holds.2⟩) ?_
    intro w reply after kept ⟨_, holds⟩ executed
    cases reply with
    | ok out =>
      obtain ⟨⟨invariant, others⟩, stored, _⟩ := creates w _ after kept holds (recordCreated_of_creates merged executed)
      exact ⟨invariant, others, stored⟩
    | error e =>
      obtain ⟨rfl | ⟨out, executed⟩, taken⟩ := executed
      · refine ⟨kept, fun _ _ => rely.refl _ _, fun other => failed e _ kept holds fun conflict => ?_,
          fun conflict => failed _ _ kept holds fun _ => taken conflict⟩
        rw [conflict] at other
        cases other
      · obtain ⟨⟨invariant, others⟩, _, lost⟩ := creates w _ after kept holds (recordCreated_of_creates merged executed)
        exact ⟨invariant, others, fun _ => lost e, fun _ => lost _⟩
  refine .bind create fun reply => ?_
  cases reply with
  | ok out => exact .done fun w holds => holds
  | error e =>
    dsimp only
    split
    · rename_i conflict
      exact .done fun w holds => holds.2 conflict
    · rename_i other
      exact .done fun w holds => holds.1 (by simpa using other)

theorem delete_triple {id : String} {post : Option GoError → World γ → Prop} (stable : rely.Stable thread pre)
    (unchanged : ∀ e w, rely.invariant w → pre w → post e w)
    (deletes : ∀ w after, rely.invariant w → pre w → rules.Deletes thread w id after →
      Keeps rely thread w after ∧ ∀ e, post e after) :
    rely.Triple rules.semantics thread pre (s.delete id) post := by
  refine .bind (triple_read stable getMap_reads) fun reply => ?_
  cases reply with
  | error e =>
    dsimp only
    split <;> exact .done fun w ⟨kept, holds, _⟩ => unchanged _ w kept holds
  | ok cm =>
    dsimp only
    split
    · exact .done fun w ⟨kept, holds, _⟩ => unchanged _ w kept holds
    have delete : rely.Triple rules.semantics thread pre (ask (S := Api) (.deleteMap id))
        fun _ w => ∀ e, post e w := by
      refine .request stable fun w reply after kept holds executed => ?_
      have outcome : after = w ∨ rules.Deletes thread w id after := by
        cases reply with
        | none => exact .inr executed
        | some e => exact executed
      obtain rfl | executed := outcome
      · exact ⟨kept, fun _ _ => rely.refl _ _, fun e => unchanged e _ kept holds⟩
      · obtain ⟨⟨invariant, others⟩, ended⟩ := deletes w after kept holds executed
        exact ⟨invariant, others, ended⟩
    refine .bind (delete.pre_mono fun w ⟨_, holds, _⟩ => holds) fun reply => ?_
    split <;> exact .done fun w holds => holds _

/-! ### The fleet -/

theorem decodeFleet_bind {f : Fleet} (decoded : o.decodeFleet cm = .ok f) :
    (fleetOf cm).bind o.config = .ok f := by
  unfold Operator.decodeFleet at decoded
  split at decoded
  · cases decoded
  split at decoded
  · rename_i stored found
    simpa only [fleetOf, found] using decoded
  · cases decoded

theorem fleet_of_lookup {w : World γ} (found : w.maps.lookup (fleetName name) = some cm) :
    w.fleet name = fleetOf cm := by
  simp only [World.fleet, Maps.fleet, found]

/-- Reading the fleet of a running scale set; the first reader creates it. -/
theorem loadFleet_triple (own : o.config.name = rules.name)
    {post : Except GoError (ConfigMap × Fleet) → World γ → Prop} (stable : rely.Stable thread pre)
    (failed : ∀ e w, rely.invariant w → pre w → post (.error e) w)
    (opens : ∀ w after, rely.invariant w → pre w → FleetOpened rules thread w after → Keeps rely thread w after ∧ pre after)
    (loaded : ∀ cm f w, rely.invariant w → pre w → w.maps.lookup (fleetName rules.name) = some cm →
      (fleetOf cm).bind o.config = .ok f → post (.ok (cm, f)) w) :
    rely.Triple rules.semantics thread pre o.loadFleet post := by
  let mapped (reply : Except GoError ConfigMap) (w : World γ) : Prop :=
    rely.invariant w ∧ pre w ∧ ∀ cm, reply = .ok cm → w.maps.lookup (fleetName rules.name) = some cm
  have create : rely.Triple rules.semantics thread pre
      (ask (S := Api) (.createMap (emptyFleetMap o.config.name))) mapped := by
    refine .request stable fun w reply after kept holds executed => ?_
    rw [own] at executed
    have opening (out : ConfigMap) (creates : rules.Creates thread w (emptyFleetMap rules.name) out after) :
        FleetOpened rules thread w after ∧ after.maps.lookup (fleetName rules.name) = some out := by
      obtain ⟨absent, newer, same, rfl⟩ := creates
      refine ⟨⟨absent, out.resourceVersion, newer, ?_⟩, AList.lookup_insert _⟩
      rw [← same]
      rfl
    cases reply with
    | ok out =>
      obtain ⟨opened, found⟩ := opening out executed
      obtain ⟨⟨invariant, others⟩, still⟩ := opens w after kept holds opened
      exact ⟨invariant, others, invariant, still, fun cm same => by cases same; exact found⟩
    | error e =>
      obtain ⟨rfl | ⟨out, creates⟩, _⟩ := executed
      · exact ⟨kept, fun _ _ => rely.refl _ _, kept, holds, fun cm same => by cases same⟩
      · obtain ⟨opened, _⟩ := opening out creates
        obtain ⟨⟨invariant, others⟩, still⟩ := opens w after kept holds opened
        exact ⟨invariant, others, invariant, still, fun cm same => by cases same⟩
  have find : rely.Triple rules.semantics thread pre (o.fleetMap true) mapped := by
    refine .bind (triple_read stable getMap_reads) fun reply => ?_
    cases reply with
    | ok cm =>
      refine .done fun w ⟨kept, holds, _, found⟩ => ⟨kept, holds, fun other same => ?_⟩
      cases same
      rw [own] at found
      exact found
    | error e =>
      dsimp only
      split
      · exact create.pre_mono fun w ⟨_, holds, _⟩ => holds
      · exact .done fun w ⟨kept, holds, _⟩ => ⟨kept, holds, fun cm same => by cases same⟩
  refine .bind find fun reply => ?_
  cases reply with
  | error e => exact .done fun w ⟨kept, holds, _⟩ => failed e w kept holds
  | ok cm =>
    dsimp only
    split
    · exact .done fun w ⟨kept, holds, _⟩ => failed _ w kept holds
    · rename_i f decoded
      exact .done fun w ⟨kept, holds, found⟩ => loaded cm f w kept holds (found cm rfl) (decodeFleet_bind decoded)

/-- Reading the fleet without creating it. -/
theorem readFleet_triple (own : o.config.name = rules.name)
    {post : Except GoError (ConfigMap × Fleet) → World γ → Prop} (stable : rely.Stable thread pre)
    (failed : ∀ e w, rely.invariant w → pre w → post (.error e) w)
    (read : ∀ cm f w, rely.invariant w → pre w → (w.fleet rules.name).bind o.config = .ok f → post (.ok (cm, f)) w) :
    rely.Triple rules.semantics thread pre (o.readFleet false) post := by
  let mapped (reply : Except GoError ConfigMap) (w : World γ) : Prop :=
    rely.invariant w ∧ pre w ∧ ∀ cm, reply = .ok cm → w.fleet rules.name = fleetOf cm
  have find : rely.Triple rules.semantics thread pre (o.fleetMap false) mapped := by
    refine .bind (triple_read stable getMap_reads) fun reply => ?_
    cases reply with
    | ok cm =>
      refine .done fun w read => ⟨read.1, read.2.1, fun other same => ?_⟩
      cases same
      have found := read.2.2.2
      rw [own] at found
      exact fleet_of_lookup found
    | error e =>
      dsimp only
      split
      · rename_i missing
        refine .done fun w read => ⟨read.1, read.2.1, fun other same => ?_⟩
        cases same
        have absent := read.2.2.2 missing
        rw [own] at absent
        simp only [World.fleet, Maps.fleet, absent]
        exact (@fleetOf_emptyFleetMap o.config.name 0).symm
      · exact .done fun w read => ⟨read.1, read.2.1, fun cm same => by cases same⟩
  refine .bind find fun reply => ?_
  cases reply with
  | error e => exact .done fun w found => failed e w found.1 found.2.1
  | ok cm =>
    dsimp only
    split
    · exact .done fun w found => failed _ w found.1 found.2.1
    · rename_i f decoded
      refine .done fun w found => read cm f w found.1 found.2.1 ?_
      rw [found.2.2 cm rfl]
      exact decodeFleet_bind decoded

/-- Saving the fleet: the one stored is still the one that was read. -/
theorem saveFleet_triple {f : Fleet} {post : Option GoError → World γ → Prop} (stable : rely.Stable thread pre)
    (read : ∀ w, rely.invariant w → pre w → cm.name = fleetName rules.name ∧ cm.resourceVersion ≠ 0 ∧ Seen cm w)
    (failed : ∀ e w, rely.invariant w → pre w → post (some e) w)
    (saves : ∀ w after, rely.invariant w → pre w → FleetSaved rules thread w cm f after →
      Keeps rely thread w after ∧ ∀ e, post e after) :
    rely.Triple rules.semantics thread pre (saveFleet cm f) post := by
  let answered (reply : Except GoError ConfigMap) (w : World γ) : Prop :=
    match reply with
    | .ok _ => post none w
    | .error e => post (some e) w
  have update : rely.Triple rules.semantics thread pre
      (ask (S := Api) (.updateMap (withFleet cm f))) answered := by
    refine .request stable fun w reply after kept holds executed => ?_
    obtain ⟨named, assigned, seen⟩ := read w kept holds
    have saved (out : ConfigMap) (updates : rules.Updates thread w (withFleet cm f) out after) :
        FleetSaved rules thread w cm f after := by
      obtain ⟨⟨current, known, version⟩, newer, same, rfl⟩ := updates
      obtain rfl : current = cm := seen.2 current known (version assigned)
      refine ⟨named ▸ known, out.resourceVersion, newer, ?_⟩
      rw [putFleet, ← same, ← named]
      rfl
    cases reply with
    | ok out =>
      obtain ⟨⟨invariant, others⟩, ended⟩ := saves w after kept holds (saved out executed)
      exact ⟨invariant, others, ended none⟩
    | error e =>
      obtain rfl | ⟨out, executed⟩ := executed
      · exact ⟨kept, fun _ _ => rely.refl _ _, failed e _ kept holds⟩
      · obtain ⟨⟨invariant, others⟩, ended⟩ := saves w after kept holds (saved out executed)
        exact ⟨invariant, others, ended _⟩
  refine .bind update fun reply => ?_
  cases reply <;> exact .done fun w holds => holds

end Operations

end RunnerScout.State
