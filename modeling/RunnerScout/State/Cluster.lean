import RunnerScout.Lifecycle.Resources
import RunnerScout.Operator.Admission

/-! # ConfigMaps under concurrent writers

The world of an operator process: the ConfigMaps of its scale set, each replaced
only at the version it was read at, the clock, and the allocation names drawn so
far.  Every call may fail; a write may also be applied and then reported as failed.
What the results about a run keep track of besides is its `history`.

Over it, what a ConfigMap stands for (`Maps.record`, `Maps.fleet`) and what each kind
of write does to that.
-/

namespace RunnerScout.State

open Interaction Lifecycle Operator

variable {name key id : String} {a r stored : Allocation}

abbrev Maps := GoMap String ConfigMap

structure World (γ : Type) where
  maps : Maps := ∅
  /-- The latest version the API server has assigned. -/
  version : Revision := 0
  /-- The last instant the clock showed. -/
  clock : Time := 0
  /-- The allocation names drawn so far. -/
  drawn : List String := []
  history : γ

/-- What may differ from one result to the next: the instants the clock may show after
    one another, the records that may be deleted, and what is kept of the readings of the
    clock, of the writes and of the calls that do not go to the cluster. -/
structure Rules (γ : Type) where
  name : String
  clock : Time → Time → Prop
  shown : Nat → Time → γ → γ := fun _ _ history => history
  removable : World γ → String → Prop
  wrote : Nat → Maps → Maps → γ → γ
  outside : Nat → γ → (request : ApiRequest) → ApiReply request → γ → Prop

/-- The maps a label selector finds, in some order. -/
def selected (maps : Maps) (owner kind : String) : List ConfigMap :=
  (maps.entries.map fun entry => entry.2).filter fun cm =>
    cm.labels.lookup ownerLabel = some owner && cm.labels.lookup kindLabel = some kind

/-- The name of an allocation is drawn with a prefix. -/
def allocationName (uuid : String) : String := "rs-" ++ uuid

section Semantics

variable {γ : Type} (rules : Rules γ)

/-- The world after a write that left `maps` behind. -/
def Rules.write (thread : Nat) (w : World γ) (maps : Maps) (version : Revision) : World γ :=
  { w with maps := maps, version := version, history := rules.wrote thread w.maps maps w.history }

/-- A map stored under its name at a version never used before. -/
def Rules.Puts (thread : Nat) (w : World γ) (cm out : ConfigMap) (after : World γ) : Prop :=
  w.version < out.resourceVersion ∧ out = { cm with resourceVersion := out.resourceVersion } ∧
    after = rules.write thread w (w.maps.insert cm.name out) out.resourceVersion

def Rules.Creates (thread : Nat) (w : World γ) (cm out : ConfigMap) (after : World γ) : Prop :=
  w.maps.lookup cm.name = none ∧ rules.Puts thread w cm out after

/-- An update without a version would be unconditional. -/
def Rules.Updates (thread : Nat) (w : World γ) (cm out : ConfigMap) (after : World γ) : Prop :=
  (∃ current, w.maps.lookup cm.name = some current ∧
    (cm.resourceVersion ≠ 0 → current.resourceVersion = cm.resourceVersion)) ∧ rules.Puts thread w cm out after

def Rules.Deletes (thread : Nat) (w : World γ) (name : String) (after : World γ) : Prop :=
  w.maps.lookup name ≠ none ∧ rules.removable w name ∧
    ∃ version, w.version < version ∧ after = rules.write thread w (w.maps.erase name) version

def Rules.semantics : Semantics Api (World γ) := fun thread w request reply after =>
  match request, reply with
  | .getMap name, .ok cm => after = w ∧ w.maps.lookup name = some cm
  | .getMap name, .error e => after = w ∧ (errorIs (some e) .notFound = true → w.maps.lookup name = none)
  | .createMap cm, .ok out => rules.Creates thread w cm out after
  | .createMap cm, .error e =>
    (after = w ∨ ∃ out, rules.Creates thread w cm out after) ∧
      ((errorIs (some e) .conflict || errorIs (some e) .alreadyExists) = true → after.maps.lookup cm.name ≠ none)
  | .updateMap cm, .ok out => rules.Updates thread w cm out after
  | .updateMap cm, .error _ => after = w ∨ ∃ out, rules.Updates thread w cm out after
  | .deleteMap name, none => rules.Deletes thread w name after
  | .deleteMap name, some _ => after = w ∨ rules.Deletes thread w name after
  | .listMaps owner kind, .ok items => after = w ∧ items.Perm (selected w.maps owner kind)
  | .listMaps _ _, .error _ => after = w
  | .now, t => rules.clock w.clock t ∧ after = { w with clock := t, history := rules.shown thread t w.history }
  | .newUUID, uuid =>
    -- a UUID does not end like the name of a fleet
    allocationName uuid ∉ w.drawn ∧ allocationName uuid ≠ fleetName rules.name ∧
      after = { w with drawn := allocationName uuid :: w.drawn }
  | .rangeOrder keys, order => after = w ∧ order.Perm keys
  | .schedule, _ => after = w
  | request, reply =>
    ∃ history, rules.outside thread w.history request reply history ∧ after = { w with history := history }

end Semantics

/-! ## What a ConfigMap stands for -/

/-- The record `Load` would return. -/
def Maps.record (maps : Maps) (id : String) : Option Allocation :=
  (maps.lookup id).bind fun cm =>
    match decodeAllocation cm with
    | .ok a => some { a with revision := cm.resourceVersion }
    | .error _ => none

def fleetOf (cm : ConfigMap) : Fleet :=
  match cm.data.lookup "fleet" with
  | some (.fleet f) => f
  | _ => {}

/-- The stored fleet; before its ConfigMap exists it is the empty one. -/
def Maps.fleet (maps : Maps) (name : String) : Fleet :=
  match maps.lookup (fleetName name) with
  | some cm => fleetOf cm
  | none => {}

abbrev World.record {γ : Type} (w : World γ) (id : String) : Option Allocation := w.maps.record id

abbrev World.fleet {γ : Type} (w : World γ) (name : String) : Fleet := w.maps.fleet name

/-- A stored allocation: its references were merged, its revision is the version of its map. -/
structure StoredRecord (a : Allocation) : Prop where
  revision : a.revision = 0
  merged : ∃ references changed, mergeResources [] references = .ok (a.resources, changed)

/-- The maps of one scale set: its fleet, and records under their own names. -/
structure Genuine (name key : String) (version : Revision) (cm : ConfigMap) : Prop where
  named : cm.name = key
  assigned : cm.resourceVersion ≠ 0
  past : cm.resourceVersion ≤ version
  content :
    (key = fleetName name ∧ cm.labels.lookup ownerLabel = some name ∧ cm.labels.lookup kindLabel = none ∧
      cm.data.lookup "allocation" = none ∧ cm.data.lookup "allocation-v2" = none ∧
      ∃ f, cm.data.lookup "fleet" = some (.fleet f)) ∨
    (key ≠ fleetName name ∧ ∃ a, StoredRecord a ∧ a.id = key ∧
      cm = (⟨name⟩ : Kubernetes).encode a cm.resourceVersion)

def WellFormed {γ : Type} (name : String) (w : World γ) : Prop :=
  ∀ key cm, w.maps.lookup key = some cm → Genuine name key w.version cm

theorem decodeAllocation_encode {revision : Revision} (stored : StoredRecord a) :
    decodeAllocation ((⟨name⟩ : Kubernetes).encode a revision) = .ok a := by
  obtain ⟨references, changed, merged⟩ := stored.merged
  obtain ⟨again, merges⟩ := mergeResources_again merged
  have other : AList.lookup "allocation" ((∅ : GoMap String Document).insert "allocation-v2" (.allocation a)) = none ∧
      AList.lookup "allocation-v2" ((∅ : GoMap String Document).insert "allocation" (.allocation a)) = none := by
    constructor <;> rw [AList.lookup_insert_ne (by decide)] <;> rfl
  unfold decodeAllocation Kubernetes.encode
  by_cases dependencies : a.resources.length > 0
  · simp only [dependencies, if_true, other.1, AList.lookup_insert, decodeValue, merges]
    simp
  · simp only [dependencies, if_false, other.2, AList.lookup_insert, decodeValue, merges]
    simp

theorem Genuine.mono {version later : Revision} {cm : ConfigMap} (genuine : Genuine name key version cm)
    (since : version ≤ later) : Genuine name key later cm :=
  { genuine with past := Nat.le_trans genuine.past since }

/-- The map of a record decodes to it. -/
theorem record_of_lookup {maps : Maps} {version : Revision} {cm : ConfigMap} (found : maps.lookup key = some cm)
    (genuine : Genuine name key version cm) (notFleet : key ≠ fleetName name) :
    ∃ a, StoredRecord a ∧ a.id = key ∧ cm = (⟨name⟩ : Kubernetes).encode a cm.resourceVersion ∧
      maps.record key = some { a with revision := cm.resourceVersion } := by
  obtain ⟨fleet, _⟩ | ⟨_, a, stored, named, encoded⟩ := genuine.content
  · exact absurd fleet notFleet
  refine ⟨a, stored, named, encoded, ?_⟩
  have decodes : decodeAllocation cm = .ok a := by
    rw [encoded]
    exact decodeAllocation_encode stored
  simp only [Maps.record, found, Option.bind_some, decodes]

/-- The fleet is no record. -/
theorem record_fleetName {maps : Maps} {version : Revision}
    (wellFormed : ∀ cm, maps.lookup (fleetName name) = some cm → Genuine name (fleetName name) version cm) :
    maps.record (fleetName name) = none := by
  unfold Maps.record
  cases found : maps.lookup (fleetName name) with
  | none => rfl
  | some cm =>
    obtain ⟨_, _, _, legacy, current, _⟩ | ⟨notFleet, _⟩ := (wellFormed cm found).content
    · simp [decodeAllocation, legacy, current]
    · exact absurd rfl notFleet

/-- A record, and the map it is read from. -/
theorem WellFormed.lookup_of_record {γ : Type} {w : World γ} (wellFormed : WellFormed name w)
    (found : w.record id = some r) :
    id ≠ fleetName name ∧ ∃ a cm, w.maps.lookup id = some cm ∧ StoredRecord a ∧ a.id = id ∧
      cm = (⟨name⟩ : Kubernetes).encode a cm.resourceVersion ∧ r = { a with revision := cm.resourceVersion } := by
  have notFleet : id ≠ fleetName name := by
    rintro rfl
    rw [World.record, record_fleetName fun cm known => wellFormed _ cm known] at found
    cases found
  refine ⟨notFleet, ?_⟩
  cases known : w.maps.lookup id with
  | none => simp [World.record, Maps.record, known] at found
  | some cm =>
    obtain ⟨a, stored, named, encoded, record⟩ := record_of_lookup known (wellFormed id cm known) notFleet
    rw [World.record, record] at found
    cases found
    exact ⟨a, cm, rfl, stored, named, encoded, rfl⟩

theorem WellFormed.record_id {γ : Type} {w : World γ} (wellFormed : WellFormed name w) (found : w.record id = some r) :
    r.id = id := by
  obtain ⟨_, a, cm, _, _, named, _, rfl⟩ := wellFormed.lookup_of_record found
  exact named

theorem record_isSome_of_lookup {γ : Type} {w : World γ} (wellFormed : WellFormed name w)
    (notFleet : id ≠ fleetName name) (found : w.maps.lookup id ≠ none) : w.record id ≠ none := by
  obtain ⟨cm, known⟩ := Option.ne_none_iff_exists'.mp found
  obtain ⟨a, _, _, _, record⟩ := record_of_lookup known (wellFormed id cm known) notFleet
  rw [World.record, record]
  exact Option.some_ne_none _

/-! ## Versions -/

/-- Whatever stands under a name later stood there before or carries a newer version. -/
structure Evolves {γ : Type} (before after : World γ) : Prop where
  version : before.version ≤ after.version
  maps : ∀ key cm, after.maps.lookup key = some cm →
    before.maps.lookup key = some cm ∨ before.version < cm.resourceVersion

theorem Evolves.refl {γ : Type} (w : World γ) : Evolves w w := ⟨Nat.le_refl _, fun _ _ found => .inl found⟩

theorem Evolves.trans {γ : Type} {first second third : World γ} (earlier : Evolves first second)
    (later : Evolves second third) : Evolves first third where
  version := Nat.le_trans earlier.version later.version
  maps := fun key cm found => by
    obtain before | newer := later.maps key cm found
    · exact earlier.maps key cm before
    · exact .inr (Nat.lt_of_le_of_lt earlier.version newer)

/-- A map that was read: at its version, its name still stands for it. -/
def Seen {γ : Type} (cm : ConfigMap) (w : World γ) : Prop :=
  cm.resourceVersion ≤ w.version ∧
    ∀ current, w.maps.lookup cm.name = some current → current.resourceVersion = cm.resourceVersion → current = cm

theorem Seen.evolves {γ : Type} {cm : ConfigMap} {before after : World γ} (seen : Seen cm before)
    (evolves : Evolves before after) : Seen cm after := by
  refine ⟨Nat.le_trans seen.1 evolves.version, fun current found same => ?_⟩
  obtain earlier | newer := evolves.maps _ current found
  · exact seen.2 current earlier same
  · exact absurd (same ▸ newer) (Nat.not_lt.mpr seen.1)

theorem Seen.of_lookup {γ : Type} {cm : ConfigMap} {w : World γ} (wellFormed : WellFormed name w)
    (found : w.maps.lookup key = some cm) : Seen cm w := by
  have genuine := wellFormed key cm found
  refine ⟨genuine.past, fun current known _ => ?_⟩
  rw [genuine.named, found] at known
  exact (Option.some.inj known).symm

/-- A record that was read: at its revision, its name still stands for it. -/
def RecordSeen {γ : Type} (a : Allocation) (w : World γ) : Prop :=
  a.revision ≠ 0 ∧ a.revision ≤ w.version ∧ ∀ r, w.record a.id = some r → r.revision = a.revision → r = a

theorem Evolves.record {γ : Type} {before after : World γ} (evolves : Evolves before after)
    (found : after.record id = some r) : before.record id = some r ∨ before.version < r.revision := by
  obtain ⟨cm, known, decoded⟩ := Option.bind_eq_some_iff.mp found
  obtain same | newer := evolves.maps id cm known
  · exact .inl (Option.bind_eq_some_iff.mpr ⟨cm, same, decoded⟩)
  · split at decoded
    · cases decoded
      exact .inr newer
    · cases decoded

theorem RecordSeen.evolves {γ : Type} {before after : World γ} (seen : RecordSeen a before)
    (evolves : Evolves before after) : RecordSeen a after := by
  obtain ⟨stored, past, unchanged⟩ := seen
  refine ⟨stored, Nat.le_trans past evolves.version, fun r found same => ?_⟩
  obtain earlier | newer := evolves.record found
  · exact unchanged r earlier same
  · exact absurd (same ▸ newer) (Nat.not_lt.mpr past)

theorem RecordSeen.of_record {γ : Type} {w : World γ} (wellFormed : WellFormed name w) (found : w.record id = some a) :
    RecordSeen a w := by
  obtain ⟨_, x, cm, known, _, named, _, rfl⟩ := wellFormed.lookup_of_record found
  have genuine := wellFormed id cm known
  refine ⟨genuine.assigned, genuine.past, fun r again _ => ?_⟩
  rw [show ({ x with revision := cm.resourceVersion } : Allocation).id = id from named, found] at again
  exact (Option.some.inj again).symm

/-! ## What the writes do -/

section Writes

variable {γ : Type} {rules : Rules γ} {thread : Nat} {w after : World γ} {version : Revision}

/-- One name is rewritten at a new version. -/
theorem evolves_write {slot : ConfigMap} (newer : w.version < version)
    (assigned : slot.resourceVersion = version) :
    Evolves w (rules.write thread w (w.maps.insert key slot) version) := by
  refine ⟨Nat.le_of_lt newer, fun other cm found => ?_⟩
  by_cases same : other = key
  · subst same
    simp only [Rules.write, AList.lookup_insert] at found
    cases found
    exact .inr (assigned ▸ newer)
  · simp only [Rules.write, AList.lookup_insert_ne same] at found
    exact .inl found

theorem wellFormed_write {slot : ConfigMap} (wellFormed : WellFormed rules.name w)
    (newer : w.version < version) (genuine : Genuine rules.name key version slot) :
    WellFormed rules.name (rules.write thread w (w.maps.insert key slot) version) := by
  intro other cm found
  by_cases same : other = key
  · subst same
    simp only [Rules.write, AList.lookup_insert] at found
    cases found
    exact genuine
  · simp only [Rules.write, AList.lookup_insert_ne same] at found
    exact (wellFormed other cm found).mono (Nat.le_of_lt newer)

/-- A record is stored under its name. -/
def putRecord (rules : Rules γ) (thread : Nat) (w : World γ) (stored : Allocation) : World γ :=
  rules.write thread w
    (w.maps.insert stored.id ((⟨rules.name⟩ : Kubernetes).encode { stored with revision := 0 } stored.revision))
    stored.revision

/-- A fleet is stored over the map it was read from. -/
def putFleet (rules : Rules γ) (thread : Nat) (w : World γ) (cm : ConfigMap) (f : Fleet) (version : Revision) :
    World γ :=
  rules.write thread w
    (w.maps.insert (fleetName rules.name) { withFleet cm f with resourceVersion := version }) version

/-- A record replaced at the revision it was read at. -/
def RecordSaved (rules : Rules γ) (thread : Nat) (w : World γ) (x : Allocation) (revision : Revision)
    (stored : Allocation) (after : World γ) : Prop :=
  ∃ record, w.record x.id = some record ∧ Stores record x revision stored ∧ w.version < stored.revision ∧
    StoredRecord { stored with revision := 0 } ∧ after = putRecord rules thread w stored

/-- A record that did not exist before. -/
def RecordCreated (rules : Rules γ) (thread : Nat) (w : World γ) (x stored : Allocation) (after : World γ) : Prop :=
  w.maps.lookup x.id = none ∧ Saved x stored ∧ w.version < stored.revision ∧
    StoredRecord { stored with revision := 0 } ∧ after = putRecord rules thread w stored

def FleetSaved (rules : Rules γ) (thread : Nat) (w : World γ) (cm : ConfigMap) (f : Fleet) (after : World γ) : Prop :=
  w.maps.lookup (fleetName rules.name) = some cm ∧
    ∃ version, w.version < version ∧ after = putFleet rules thread w cm f version

/-- The fleet's map is created, empty. -/
def FleetOpened (rules : Rules γ) (thread : Nat) (w after : World γ) : Prop :=
  w.maps.lookup (fleetName rules.name) = none ∧
    ∃ version, w.version < version ∧
      after = rules.write thread w
        (w.maps.insert (fleetName rules.name) { emptyFleetMap rules.name with resourceVersion := version }) version

theorem putRecord_record (canonical : StoredRecord { stored with revision := 0 }) :
    (putRecord rules thread w stored).record = Function.update w.record stored.id (some stored) := by
  funext id
  by_cases same : id = stored.id
  · subst same
    rw [Function.update_self]
    have decodes := @decodeAllocation_encode rules.name _ stored.revision canonical
    simp only [World.record, Maps.record, putRecord, Rules.write, AList.lookup_insert, Option.bind_some, decodes]
    rfl
  · rw [Function.update_of_ne same]
    simp only [World.record, Maps.record, putRecord, Rules.write, AList.lookup_insert_ne same]

theorem putRecord_fleet (notFleet : stored.id ≠ fleetName rules.name) :
    (putRecord rules thread w stored).fleet rules.name = w.fleet rules.name := by
  simp only [World.fleet, Maps.fleet, putRecord, Rules.write, AList.lookup_insert_ne (Ne.symm notFleet)]

theorem putRecord_genuine (notFleet : stored.id ≠ fleetName rules.name)
    (canonical : StoredRecord { stored with revision := 0 }) (assigned : stored.revision ≠ 0) :
    Genuine rules.name stored.id stored.revision
      ((⟨rules.name⟩ : Kubernetes).encode { stored with revision := 0 } stored.revision) where
  named := rfl
  assigned := assigned
  past := Nat.le_refl _
  content := .inr ⟨notFleet, { stored with revision := 0 }, canonical, rfl, rfl⟩

theorem putFleet_fleet {cm : ConfigMap} {f : Fleet} {version : Revision} :
    (putFleet rules thread w cm f version).fleet rules.name = f := by
  simp [World.fleet, Maps.fleet, putFleet, Rules.write, fleetOf, withFleet]

/-- A fleet saved over a genuine one changes no record. -/
theorem putFleet_genuine {cm : ConfigMap} {f : Fleet} {version : Revision}
    (genuine : Genuine rules.name (fleetName rules.name) w.version cm) (newer : w.version < version) :
    Genuine rules.name (fleetName rules.name) version { withFleet cm f with resourceVersion := version } := by
  obtain ⟨_, owner, kind, legacy, current, _⟩ | ⟨notFleet, _⟩ := genuine.content
  · refine ⟨genuine.named, Nat.ne_of_gt (Nat.zero_lt_of_lt newer), Nat.le_refl _, .inl ⟨rfl, owner, kind, ?_, ?_, f, ?_⟩⟩
    · exact (AList.lookup_insert_ne (by decide)).trans legacy
    · exact (AList.lookup_insert_ne (by decide)).trans current
    · exact AList.lookup_insert _
  · exact absurd rfl notFleet

theorem putFleet_record {cm : ConfigMap} {f : Fleet} {version : Revision} (wellFormed : WellFormed rules.name w)
    (found : w.maps.lookup (fleetName rules.name) = some cm) (newer : w.version < version) :
    (putFleet rules thread w cm f version).record = w.record := by
  have genuine := @putFleet_genuine γ rules w cm f version (wellFormed _ _ found) newer
  funext id
  by_cases same : id = fleetName rules.name
  · subst same
    have none : w.record (fleetName rules.name) = none := record_fleetName fun slot known => wellFormed _ slot known
    rw [none]
    refine @record_fleetName _ _ version fun slot known => ?_
    simp only [putFleet, Rules.write, AList.lookup_insert] at known
    cases known
    exact genuine
  · simp only [World.record, Maps.record, putFleet, Rules.write, AList.lookup_insert_ne same]

theorem emptyFleetMap_genuine (assigned : version ≠ 0) :
    Genuine rules.name (fleetName rules.name) version { emptyFleetMap rules.name with resourceVersion := version } where
  named := rfl
  assigned := assigned
  past := Nat.le_refl _
  content := .inl ⟨rfl, AList.lookup_insert _, AList.lookup_insert_ne (by decide), AList.lookup_insert_ne (by decide),
    AList.lookup_insert_ne (by decide), {}, AList.lookup_insert _⟩

theorem fleetOf_emptyFleetMap :
    fleetOf { emptyFleetMap name with resourceVersion := version } = {} := by
  simp only [fleetOf, emptyFleetMap, AList.lookup_insert]

theorem FleetOpened.fleet (opened : FleetOpened rules thread w after) :
    after.fleet rules.name = w.fleet rules.name := by
  obtain ⟨absent, version, _, rfl⟩ := opened
  simp only [World.fleet, Maps.fleet, Rules.write, absent, AList.lookup_insert]
  exact fleetOf_emptyFleetMap

theorem FleetOpened.wellFormed (opened : FleetOpened rules thread w after) (wellFormed : WellFormed rules.name w) :
    WellFormed rules.name after := by
  obtain ⟨_, version, newer, rfl⟩ := opened
  exact wellFormed_write wellFormed newer (emptyFleetMap_genuine (Nat.ne_of_gt (Nat.zero_lt_of_lt newer)))

theorem FleetOpened.evolves (opened : FleetOpened rules thread w after) : Evolves w after := by
  obtain ⟨_, version, newer, rfl⟩ := opened
  exact evolves_write newer rfl

theorem FleetOpened.record (opened : FleetOpened rules thread w after) (wellFormed : WellFormed rules.name w) :
    after.record = w.record := by
  have genuine := opened.wellFormed wellFormed
  obtain ⟨_, version, newer, rfl⟩ := opened
  funext id
  by_cases same : id = fleetName rules.name
  · subst same
    have none : w.record (fleetName rules.name) = none := record_fleetName fun slot known => wellFormed _ slot known
    rw [none]
    exact record_fleetName fun slot known => genuine _ slot known
  · simp only [World.record, Maps.record, Rules.write, AList.lookup_insert_ne same]

theorem erase_record :
    (rules.write thread w (w.maps.erase id) version).record = Function.update w.record id none := by
  funext other
  by_cases same : other = id
  · subst same
    simp [World.record, Maps.record, Rules.write]
  · rw [Function.update_of_ne same]
    simp only [World.record, Maps.record, Rules.write, AList.lookup_erase_ne same]

theorem erase_fleet (notFleet : id ≠ fleetName rules.name) :
    (rules.write thread w (w.maps.erase id) version).fleet rules.name = w.fleet rules.name := by
  simp only [World.fleet, Maps.fleet, Rules.write, AList.lookup_erase_ne (Ne.symm notFleet)]

theorem erase_wellFormed (wellFormed : WellFormed rules.name w) (newer : w.version < version) :
    WellFormed rules.name (rules.write thread w (w.maps.erase id) version) := by
  intro other cm found
  exact (wellFormed other cm (GoMap.lookup_erase_eq_some.mp found).2).mono (Nat.le_of_lt newer)

theorem erase_evolves (newer : w.version < version) :
    Evolves w (rules.write thread w (w.maps.erase id) version) :=
  ⟨Nat.le_of_lt newer, fun _ _ found => .inl (GoMap.lookup_erase_eq_some.mp found).2⟩

end Writes

end RunnerScout.State
