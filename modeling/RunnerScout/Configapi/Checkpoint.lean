import RunnerScout.Configapi.Calls
import RunnerScout.Interaction.History

/-! # The accepted configuration

`Checkpoints` keeps the last accepted snapshot of a scale set in a ConfigMap, without
the objects' other metadata and without Secrets.  A snapshot only replaces another one
of the same UID and the same binding.
-/

namespace RunnerScout.Configapi

open Interaction Operator

/-! ## Snapshots at rest -/

/-- A time as `metav1.Time` is encoded, without its fraction of a second. -/
def seconds (t : Time) : Time := t - t % second

theorem seconds_seconds (t : Int) : seconds (seconds t) = seconds t := by
  show t - t % 1000000000 - (t - t % 1000000000) % 1000000000 = t - t % 1000000000
  omega

def ObjectMeta.toSeconds (m : ObjectMeta) : ObjectMeta :=
  { m with deletionTimestamp := m.deletionTimestamp.map seconds }

def ConfigurationStatus.toSeconds (s : ConfigurationStatus) : ConfigurationStatus :=
  { s with conditions := s.conditions.map fun c => { c with lastTransitionTime := seconds c.lastTransitionTime } }

def Configuration.toSeconds {σ : Type} (c : Configuration σ) : Configuration σ :=
  { c with metadata := c.metadata.toSeconds, status := c.status.toSeconds }

def CapacityCatalogSpec.toSeconds (spec : CapacityCatalogSpec) : CapacityCatalogSpec :=
  { spec with offerings := spec.offerings.map fun o => { o with observedAt := seconds o.observedAt } }

/-- What is left of a snapshot once it was encoded. -/
def Snapshot.toSeconds (s : Snapshot) : Snapshot where
  scaleSet := s.scaleSet.toSeconds
  runnerClass := s.runnerClass.toSeconds
  catalog := { s.catalog.toSeconds with spec := s.catalog.spec.toSeconds }
  providers := s.providers.mapValues Configuration.toSeconds
  network := s.network.map Configuration.toSeconds
  budget := s.budget.map Configuration.toSeconds

/-- `metadata` of `checkpointSnapshot`. -/
def ObjectMeta.stripped (m : ObjectMeta) : ObjectMeta :=
  { name := m.name, space := m.space, uid := m.uid, generation := m.generation }

def Configuration.stripped {σ : Type} (c : Configuration σ) : Configuration σ :=
  { c with metadata := c.metadata.stripped, status := {} }

def Snapshot.stripped (s : Snapshot) : Snapshot where
  scaleSet := s.scaleSet.stripped
  runnerClass := s.runnerClass.stripped
  catalog := s.catalog.stripped
  providers := s.providers.mapValues Configuration.stripped
  network := s.network.map Configuration.stripped
  budget := s.budget.map Configuration.stripped

/-- The snapshot a checkpoint keeps. -/
def Snapshot.kept (s : Snapshot) : Snapshot := s.toSeconds.stripped

theorem Configuration.stripped_toSeconds {σ : Type} (c : Configuration σ) : c.stripped.toSeconds = c.stripped := rfl

theorem CapacityCatalogSpec.toSeconds_toSeconds (spec : CapacityCatalogSpec) : spec.toSeconds.toSeconds = spec.toSeconds := by
  simp [CapacityCatalogSpec.toSeconds, seconds_seconds]

/-- What is kept is encoded without loss. -/
theorem Snapshot.kept_toSeconds (s : Snapshot) : s.kept.toSeconds = s.kept := by
  have same {σ : Type} : (Configuration.toSeconds ∘ Configuration.stripped : Configuration σ → Configuration σ) =
      Configuration.stripped := funext Configuration.stripped_toSeconds
  have providers : s.kept.toSeconds.providers = s.kept.providers := by
    show ((s.providers.mapValues Configuration.toSeconds).mapValues Configuration.stripped).mapValues _ = _
    rw [GoMap.mapValues_mapValues _ _ (s.providers.mapValues Configuration.toSeconds), same]
    rfl
  have network : s.kept.network.map Configuration.toSeconds = s.kept.network := by
    show ((s.network.map Configuration.toSeconds).map Configuration.stripped).map _ = _
    rw [Option.map_map _ _ (s.network.map Configuration.toSeconds), same]
    rfl
  have budget : s.kept.budget.map Configuration.toSeconds = s.kept.budget := by
    show ((s.budget.map Configuration.toSeconds).map Configuration.stripped).map _ = _
    rw [Option.map_map _ _ (s.budget.map Configuration.toSeconds), same]
    rfl
  have catalog : s.kept.toSeconds.catalog = s.kept.catalog := by
    show (⟨_, s.catalog.spec.toSeconds.toSeconds, _⟩ : CapacityCatalog) = _
    rw [CapacityCatalogSpec.toSeconds_toSeconds]
    rfl
  show (⟨_, _, s.kept.toSeconds.catalog, s.kept.toSeconds.providers, s.kept.network.map Configuration.toSeconds,
    s.kept.budget.map Configuration.toSeconds⟩ : Snapshot) = _
  rw [catalog, providers, network, budget]
  rfl

/-- What is kept agrees with the snapshot it was made from. -/
theorem Snapshot.agree_kept (s : Snapshot) : Agree s s.kept where
  name := rfl
  space := rfl
  gitHub := rfl
  provisioningSeconds := rfl
  maxLifetimeSeconds := rfl
  runnerClass := rfl
  providers := fun name => by
    show (((s.providers.mapValues Configuration.toSeconds).mapValues Configuration.stripped).lookup name).map _ = _
    rw [GoMap.lookup_mapValues, GoMap.lookup_mapValues, Option.map_map, Option.map_map]
    rfl
  network := by
    show ((s.network.map Configuration.toSeconds).map Configuration.stripped).map _ = _
    rw [Option.map_map, Option.map_map]
    rfl

/-! ## The checkpoint -/

/-- `encoding/json` at the type `Snapshot`.  The strict decoder reads one document; the
    flag says that nothing follows it. -/
structure Codec where
  marshal : Snapshot → Option String
  unmarshal : String → Except GoError Snapshot
  decoder : String → Option (Snapshot × Bool)

/-- An encoding that keeps everything to the precision of its times. -/
structure Codec.Faithful (codec : Codec) : Prop where
  unmarshal_marshal : ∀ s text, codec.marshal s = some text → codec.unmarshal text = .ok s.toSeconds
  decoder_marshal : ∀ s text, codec.marshal s = some text → codec.decoder text = some (s.toSeconds, true)
  marshal_ne : ∀ s text, codec.marshal s = some text → text.utf8ByteSize ≠ 0

def checkpointKind : String := "configuration"

def checkpointUID : String := "runnerscout.io/scale-set-uid"

def checkpointLimit : Nat := 900 * 2 ^ 10

def errCheckpointOwnership : GoError := .new "configuration checkpoint ownership mismatch"

def errBindingChange : GoError := .new "restore the accepted provider and class binding for cleanup"

structure Checkpoints where
  space : String
  name : String
deriving DecidableEq, Repr

/-- The text of an entry, empty where there is none. -/
def entry (m : GoMap String String) (key : String) : String := (m.lookup key).getD ""

section Checkpoints

variable (checks : Checks) (codec : Codec) (c : Checkpoints)

def Checkpoints.mapName : String := c.name ++ "-configuration"

def Checkpoints.decode (cm : ConfigMap) : Except GoError Snapshot :=
  let data := entry cm.data "snapshot"
  if cm.metadata.space ≠ c.space ∨ cm.metadata.name ≠ c.mapName ∨ entry cm.metadata.labels "runnerscout/owner" ≠ c.name
      ∨ entry cm.metadata.labels "runnerscout/kind" ≠ checkpointKind then
    .error errCheckpointOwnership
  else if data.utf8ByteSize = 0 ∨ data.utf8ByteSize > checkpointLimit then
    .error (.new "invalid configuration checkpoint size")
  else
    match codec.decoder data with
    | none => .error (.new "invalid configuration checkpoint")
    | some (_, false) => .error (.new "invalid configuration checkpoint trailer")
    | some (snapshot, true) =>
      let root := snapshot.scaleSet.metadata
      if root.space ≠ c.space ∨ root.name ≠ c.name ∨ root.uid = "" ∨ root.uid ≠ entry cm.metadata.annotations checkpointUID then
        .error errCheckpointOwnership
      else
        match compile checks snapshot with
        | .error e => .error e
        | .ok _ => .ok snapshot

def Checkpoints.read : Fallible Snapshot := do
  let cm ← Attempt.of (ask (.getMap c.mapName))
  Attempt.result (c.decode checks codec cm)

def checkpointSnapshot (s : Snapshot) : Except GoError Snapshot :=
  match codec.marshal s with
  | none => .error (.new "configuration exceeds checkpoint limits")
  | some data =>
    if data.utf8ByteSize > 4 * 2 ^ 20 then .error (.new "configuration exceeds checkpoint limits")
    else
      match codec.unmarshal data with
      | .error e => .error e
      | .ok snapshot => .ok snapshot.stripped

/-- What is to be saved: a snapshot, what it compiles to, and its text. -/
structure Candidate where
  snapshot : Snapshot
  resolved : Resolved
  data : String

/-- `Save` up to its first call. -/
def Checkpoints.prepare (source : Snapshot) : Except GoError Candidate := do
  let _ ← compile checks source
  let snapshot ← checkpointSnapshot codec source
  if snapshot.scaleSet.metadata.uid = "" ∨ snapshot.scaleSet.metadata.space ≠ c.space
      ∨ snapshot.scaleSet.metadata.name ≠ c.name then
    .error errCheckpointOwnership
  else
    let resolved ← compile checks snapshot
    match codec.marshal snapshot with
    | none => .error (.new "configuration exceeds checkpoint limits")
    | some data =>
      if data.utf8ByteSize > checkpointLimit then .error (.new "configuration exceeds checkpoint limits")
      else .ok { snapshot, resolved, data }

/-- The ConfigMap of a scale set that has none. -/
def Checkpoints.create (p : Candidate) : ConfigMap where
  metadata :=
    { name := c.mapName
      space := c.space
      labels := ((∅ : GoMap String String).insert "runnerscout/owner" c.name).insert "runnerscout/kind" checkpointKind
      annotations := (∅ : GoMap String String).insert checkpointUID p.snapshot.scaleSet.metadata.uid }
  data := (∅ : GoMap String String).insert "snapshot" p.data

/-- What an existing ConfigMap becomes, or nothing if it is already that. -/
def Checkpoints.replace (p : Candidate) (cm : ConfigMap) : Except GoError (Option ConfigMap) := do
  let old ← c.decode checks codec cm
  if old.scaleSet.metadata.uid ≠ p.snapshot.scaleSet.metadata.uid then .error errCheckpointOwnership
  else
    let previous ← compile checks old
    if !sameBinding previous.config p.resolved.config then .error errBindingChange
    else if entry cm.data "snapshot" = p.data then .ok none
    else .ok (some { cm with data := cm.data.insert "snapshot" p.data })

def Checkpoints.save (source : Snapshot) : Program Calls (Option GoError) :=
  match c.prepare checks codec source with
  | .error e => pure (some e)
  | .ok p => do
    match ← ask (.getMap c.mapName) with
    | .error e => if errorIs (some e) .notFound then ask (.createMap (c.create p)) else pure (some e)
    | .ok cm =>
      match c.replace checks codec p cm with
      | .error e => pure (some e)
      | .ok none => pure none
      | .ok (some updated) => ask (.updateMap updated)

end Checkpoints

/-! ## What is accepted -/

section Accepted

variable {checks : Checks} {codec : Codec} {c : Checkpoints} {cm stored : ConfigMap} {source t : Snapshot} {p : Candidate}

/-- A ConfigMap that holds a snapshot of the scale set. -/
structure Checkpoints.Accepts (checks : Checks) (codec : Codec) (c : Checkpoints) (cm : ConfigMap) (t : Snapshot) :
    Prop where
  space : cm.metadata.space = c.space
  name : cm.metadata.name = c.mapName
  owner : entry cm.metadata.labels "runnerscout/owner" = c.name
  kind : entry cm.metadata.labels "runnerscout/kind" = checkpointKind
  size : (entry cm.data "snapshot").utf8ByteSize ≠ 0 ∧ (entry cm.data "snapshot").utf8ByteSize ≤ checkpointLimit
  decoded : codec.decoder (entry cm.data "snapshot") = some (t, true)
  rootSpace : t.scaleSet.metadata.space = c.space
  rootName : t.scaleSet.metadata.name = c.name
  rootUID : t.scaleSet.metadata.uid ≠ ""
  annotated : entry cm.metadata.annotations checkpointUID = t.scaleSet.metadata.uid
  compiled : ∃ r, compile checks t = .ok r

theorem decode_ok : c.decode checks codec cm = .ok t ↔ c.Accepts checks codec cm t := by
  constructor
  · intro ok
    unfold Checkpoints.decode at ok
    dsimp only at ok
    split at ok
    · cases ok
    rename_i owned
    split at ok
    · cases ok
    rename_i sized
    split at ok
    · cases ok
    · cases ok
    rename_i snapshot decoded
    split at ok
    · cases ok
    rename_i rooted
    split at ok
    · cases ok
    rename_i r compiled
    cases ok
    simp only [not_or, ne_eq, Decidable.not_not, Nat.not_lt] at owned sized rooted
    exact ⟨owned.1, owned.2.1, owned.2.2.1, owned.2.2.2, sized, decoded, rooted.1, rooted.2.1, rooted.2.2.1,
      rooted.2.2.2.symm, r, compiled⟩
  · intro accepts
    obtain ⟨r, compiled⟩ := accepts.compiled
    unfold Checkpoints.decode
    dsimp only
    rw [if_neg (by simp [accepts.space, accepts.name, accepts.owner, accepts.kind]),
      if_neg (by simpa using accepts.size), accepts.decoded]
    dsimp only
    rw [if_neg (by simp [accepts.rootSpace, accepts.rootName, accepts.rootUID, accepts.annotated]), compiled]

theorem checkpointSnapshot_ok (faithful : codec.Faithful) (ok : checkpointSnapshot codec source = .ok t) :
    t = source.kept := by
  unfold checkpointSnapshot at ok
  split at ok
  · cases ok
  rename_i data marshalled
  split at ok
  · cases ok
  rw [faithful.unmarshal_marshal source data marshalled] at ok
  cases ok
  rfl

/-- A candidate is what is kept of its source, and compiles as the source does. -/
structure Candidate.Of (checks : Checks) (codec : Codec) (c : Checkpoints) (source : Snapshot) (p : Candidate) : Prop where
  accepted : ∃ r, compile checks source = .ok r
  kept : p.snapshot = source.kept
  uid : p.snapshot.scaleSet.metadata.uid ≠ ""
  space : p.snapshot.scaleSet.metadata.space = c.space
  name : p.snapshot.scaleSet.metadata.name = c.name
  compiled : compile checks p.snapshot = .ok p.resolved
  marshalled : codec.marshal p.snapshot = some p.data
  size : p.data.utf8ByteSize ≤ checkpointLimit

theorem prepare_ok (faithful : codec.Faithful) (ok : c.prepare checks codec source = .ok p) :
    p.Of checks codec c source := by
  unfold Checkpoints.prepare at ok
  obtain ⟨r, first, ok⟩ := bind_eq_ok.mp ok
  obtain ⟨snapshot, stripped, ok⟩ := bind_eq_ok.mp ok
  split at ok
  · cases ok
  rename_i owned
  obtain ⟨resolved, compiled, ok⟩ := bind_eq_ok.mp ok
  split at ok
  · cases ok
  rename_i data marshalled
  split at ok
  · cases ok
  rename_i sized
  cases ok
  simp only [not_or, ne_eq, Decidable.not_not] at owned
  exact ⟨⟨r, first⟩, checkpointSnapshot_ok faithful stripped, owned.1, owned.2.1, owned.2.2, compiled, marshalled,
    Nat.not_lt.mp sized⟩

theorem replace_ok {updated : Option ConfigMap} (ok : c.replace checks codec p cm = .ok updated) :
    ∃ old previous, c.Accepts checks codec cm old ∧ compile checks old = .ok previous ∧
      old.scaleSet.metadata.uid = p.snapshot.scaleSet.metadata.uid ∧
      previous.config.binding = p.resolved.config.binding ∧
      ((updated = none ∧ entry cm.data "snapshot" = p.data) ∨
        updated = some { cm with data := cm.data.insert "snapshot" p.data }) := by
  unfold Checkpoints.replace at ok
  obtain ⟨old, decoded, ok⟩ := bind_eq_ok.mp ok
  split at ok
  · cases ok
  rename_i sameUID
  obtain ⟨previous, compiled, ok⟩ := bind_eq_ok.mp ok
  split at ok
  · cases ok
  rename_i same
  have binding : previous.config.binding = p.resolved.config.binding := by
    simpa [sameBinding] using same
  refine ⟨old, previous, decode_ok.mp decoded, compiled, not_not.mp sameUID, binding, ?_⟩
  split at ok
  · rename_i unchanged
    cases ok
    exact .inl ⟨rfl, unchanged⟩
  · cases ok
    exact .inr rfl

/-- What the API keeps of a ConfigMap that is sent to it. -/
structure Keeps (sent stored : ConfigMap) : Prop where
  name : stored.metadata.name = sent.metadata.name
  space : stored.metadata.space = sent.metadata.space
  labels : stored.metadata.labels = sent.metadata.labels
  annotations : stored.metadata.annotations = sent.metadata.annotations
  data : stored.data = sent.data

theorem Keeps.refl (cm : ConfigMap) : Keeps cm cm := ⟨rfl, rfl, rfl, rfl, rfl⟩

/-- A labelled ConfigMap with the text of a candidate is accepted as that candidate. -/
theorem Candidate.Of.accepts (faithful : codec.Faithful) (candidate : p.Of checks codec c source)
    (space : stored.metadata.space = c.space) (name : stored.metadata.name = c.mapName)
    (owner : entry stored.metadata.labels "runnerscout/owner" = c.name)
    (kind : entry stored.metadata.labels "runnerscout/kind" = checkpointKind)
    (annotated : entry stored.metadata.annotations checkpointUID = p.snapshot.scaleSet.metadata.uid)
    (text : entry stored.data "snapshot" = p.data) : c.Accepts checks codec stored p.snapshot where
  space := space
  name := name
  owner := owner
  kind := kind
  size := by
    rw [text]
    exact ⟨faithful.marshal_ne _ _ candidate.marshalled, candidate.size⟩
  decoded := by
    rw [text, faithful.decoder_marshal _ _ candidate.marshalled, candidate.kept, Snapshot.kept_toSeconds]
  rootSpace := candidate.space
  rootName := candidate.name
  rootUID := candidate.uid
  annotated := annotated
  compiled := ⟨_, candidate.compiled⟩

theorem entry_insert (m : GoMap String String) (key value : String) : entry (m.insert key value) key = value := by
  unfold entry
  rw [AList.lookup_insert]
  rfl

theorem Candidate.Of.replaced (faithful : codec.Faithful) (candidate : p.Of checks codec c source)
    (accepts : c.Accepts checks codec cm t) (uid : t.scaleSet.metadata.uid = p.snapshot.scaleSet.metadata.uid)
    (keeps : Keeps { cm with data := cm.data.insert "snapshot" p.data } stored) :
    c.Accepts checks codec stored p.snapshot := by
  refine candidate.accepts faithful (keeps.space.trans accepts.space) (keeps.name.trans accepts.name) ?_ ?_ ?_ ?_
  · rw [keeps.labels]
    exact accepts.owner
  · rw [keeps.labels]
    exact accepts.kind
  · rw [keeps.annotations, ← uid]
    exact accepts.annotated
  · rw [keeps.data]
    exact entry_insert _ _ _

/-- A candidate has the binding, the authentication, the credential references and the
    suspension of its source. -/
theorem Candidate.Of.resolves {r : Resolved} (candidate : p.Of checks codec c source) (ok : compile checks source = .ok r) :
    p.resolved.config.binding = r.config.binding ∧ p.resolved.auth = r.auth ∧ p.resolved.credentials = r.credentials ∧
      p.resolved.suspend = r.suspend := by
  have compiled := candidate.compiled
  rw [candidate.kept] at compiled
  have refreshes : RefreshAlike source source.kept := fun provider _ => rfl
  obtain ⟨binding, auth, credentials⟩ := source.agree_kept.resolved refreshes ok compiled
  refine ⟨binding, auth, credentials, ?_⟩
  obtain ⟨_, _, _, _, _, rfl⟩ := compile_ok ok
  obtain ⟨_, _, _, _, _, resolved⟩ := compile_ok compiled
  rw [resolved]
  rfl

end Accepted

/-! ## Saving over and over -/

/-- The ConfigMap of the checkpoint, as the API keeps it.  An answer may be lost after a
    write was made. -/
def MapEffect (before : Option ConfigMap) (x : Exchange Calls) (after : Option ConfigMap) : Prop :=
  match x with
  | ⟨.getMap _, .ok cm⟩ => before = some cm ∧ after = before
  | ⟨.getMap _, .error e⟩ => (errorIs (some e) .notFound = true → before = none) ∧ after = before
  | ⟨.createMap cm, none⟩ => before = none ∧ ∃ stored, after = some stored ∧ Keeps cm stored
  | ⟨.createMap cm, some _⟩ => after = before ∨ before = none ∧ ∃ stored, after = some stored ∧ Keeps cm stored
  | ⟨.updateMap cm, none⟩ => before ≠ none ∧ ∃ stored, after = some stored ∧ Keeps cm stored
  | ⟨.updateMap cm, some _⟩ => after = before ∨ before ≠ none ∧ ∃ stored, after = some stored ∧ Keeps cm stored
  | _ => after = before

/-- A run that nobody else interferes with. -/
abbrev Undisturbed : Option ConfigMap → List (Exchange Calls) → Option ConfigMap → Prop :=
  Occurs MapEffect fun _ _ => False

section Saves

variable (checks : Checks) (codec : Codec) (c : Checkpoints)

/-- Calls of `Save`, one after the other, with what they returned. -/
inductive Saves : Option ConfigMap → List (Snapshot × Option GoError) → Option ConfigMap → Prop where
  | none (store : Option ConfigMap) : Saves store [] store
  | save {before after last : Option ConfigMap} {source : Snapshot} {result : Option GoError}
      {trace : List (Exchange Calls)} {rest : List (Snapshot × Option GoError)}
      (run : (c.save checks codec source).Returns trace result) (occurs : Undisturbed before trace after)
      (later : Saves after rest last) : Saves before ((source, result) :: rest) last

end Saves

section Save

variable {checks : Checks} {codec : Codec} {c : Checkpoints} {cm : ConfigMap} {source t : Snapshot}
  {result : Option GoError} {trace : List (Exchange Calls)} {before after : Option ConfigMap}

theorem undisturbed_nil (occurs : Undisturbed before [] after) : after = before := by
  cases occurs with
  | rest => rfl
  | move moved _ => exact moved.elim

theorem undisturbed_cons {x : Exchange Calls} (occurs : Undisturbed before (x :: trace) after) :
    ∃ middle, MapEffect before x middle ∧ Undisturbed middle trace after := by
  cases occurs with
  | move moved _ => exact moved.elim
  | exchange happened later => exact ⟨_, happened, later⟩

/-- What a `Save` does to an existing ConfigMap. -/
inductive Saved (checks : Checks) (codec : Codec) (c : Checkpoints) (source : Snapshot) (cm : ConfigMap) :
    List (Exchange Calls) → Option GoError → Option ConfigMap → Prop where
  | rejected {trace : List (Exchange Calls)} (e : GoError) : Saved checks codec c source cm trace (some e) (some cm)
  | unchanged {trace : List (Exchange Calls)} {p : Candidate} (prepared : c.prepare checks codec source = .ok p)
      (current : c.replace checks codec p cm = .ok none) : Saved checks codec c source cm trace none (some cm)
  | written {trace : List (Exchange Calls)} {p : Candidate} {sent stored : ConfigMap} {result : Option GoError}
      (prepared : c.prepare checks codec source = .ok p) (replaces : c.replace checks codec p cm = .ok (some sent))
      (keeps : Keeps sent stored) (answered : ⟨.updateMap sent, result⟩ ∈ trace) :
      Saved checks codec c source cm trace result (some stored)

theorem save_existing (run : (c.save checks codec source).Returns trace result)
    (occurs : Undisturbed (some cm) trace after) : Saved checks codec c source cm trace result after := by
  unfold Checkpoints.save at run
  split at run
  · obtain ⟨rfl, rfl⟩ := Program.returns_pure.mp run
    rw [undisturbed_nil occurs]
    exact .rejected _
  rename_i p prepared
  obtain ⟨got, later, rfl, checking⟩ := Program.returns_ask.mp run
  obtain ⟨middle, happened, goesOn⟩ := undisturbed_cons occurs
  cases got with
  | error e =>
    obtain ⟨absent, rfl⟩ := happened
    dsimp only at checking
    split at checking
    · rename_i missing
      cases absent missing
    · obtain ⟨rfl, rfl⟩ := Program.returns_pure.mp checking
      rw [undisturbed_nil goesOn]
      exact .rejected _
  | ok found =>
    obtain ⟨same, rfl⟩ := happened
    cases same
    dsimp only at checking
    split at checking
    · obtain ⟨rfl, rfl⟩ := Program.returns_pure.mp checking
      rw [undisturbed_nil goesOn]
      exact .rejected _
    · rename_i current
      obtain ⟨rfl, rfl⟩ := Program.returns_pure.mp checking
      rw [undisturbed_nil goesOn]
      exact .unchanged prepared current
    · rename_i sent replaces
      obtain ⟨reply, _, rfl, ending⟩ := Program.returns_call.mp checking
      obtain ⟨rfl, rfl⟩ := Program.returns_done.mp ending
      obtain ⟨middle, happened, ends⟩ := undisturbed_cons goesOn
      rw [undisturbed_nil ends]
      have answered : (⟨.updateMap sent, result⟩ : Exchange Calls) ∈
          [⟨.getMap c.mapName, .ok cm⟩, ⟨.updateMap sent, result⟩] := by simp
      cases result with
      | none =>
        obtain ⟨_, stored, rfl, keeps⟩ := happened
        exact .written prepared replaces keeps answered
      | some e =>
        obtain rfl | ⟨_, stored, rfl, keeps⟩ := happened
        · exact .rejected e
        · exact .written prepared replaces keeps answered

/-- The ConfigMap holds a snapshot of this UID that compiles to this binding. -/
def Bound (checks : Checks) (codec : Codec) (c : Checkpoints) (uid : String) (binding : Binding)
    (store : Option ConfigMap) : Prop :=
  ∃ cm t r, store = some cm ∧ c.Accepts checks codec cm t ∧ t.scaleSet.metadata.uid = uid ∧
    entry cm.metadata.annotations checkpointUID = uid ∧ compile checks t = .ok r ∧ r.config.binding = binding

/-- A `Save`, whatever it returns, keeps the UID and the binding. -/
theorem Saved.bound {uid : String} {binding : Binding} (faithful : codec.Faithful)
    (saved : Saved checks codec c source cm trace result after) (bound : Bound checks codec c uid binding (some cm)) :
    Bound checks codec c uid binding after := by
  cases saved with
  | rejected => exact bound
  | unchanged => exact bound
  | @written p sent stored _ prepared replaces keeps answered =>
    have candidate := prepare_ok faithful prepared
    obtain ⟨old, previous, accepts, compiled, sameUID, same, ⟨⟨⟩, _⟩ | sends⟩ := replace_ok replaces
    cases sends
    obtain ⟨_, t, r, present, held, rfl, annotated, resolved, rfl⟩ := bound
    cases present
    obtain rfl : t = old := by
      have texts := held.decoded
      rw [accepts.decoded] at texts
      exact (congrArg Prod.fst (Option.some.inj texts)).symm
    rw [compiled] at resolved
    cases resolved
    refine ⟨stored, p.snapshot, p.resolved, rfl, candidate.replaced faithful accepts sameUID keeps, sameUID.symm, ?_,
      candidate.compiled, same.symm⟩
    rw [keeps.annotations]
    exact annotated

theorem Saves.bound {uid : String} {binding : Binding} {saves : List (Snapshot × Option GoError)}
    (faithful : codec.Faithful) (run : Saves checks codec c before saves after)
    (bound : Bound checks codec c uid binding before) : Bound checks codec c uid binding after := by
  induction run with
  | none => exact bound
  | save run occurs _ ih =>
    obtain ⟨cm, _, _, rfl, _⟩ := id bound
    exact ih ((save_existing run occurs).bound faithful bound)

/-- A `Save` that succeeds leaves a snapshot that is read back and compiles as its source
    does. -/
theorem Saved.readable (faithful : codec.Faithful) (saved : Saved checks codec c source cm trace none after) :
    ∃ stored t q r, after = some stored ∧
      (c.read checks codec).run.Returns [⟨.getMap c.mapName, .ok stored⟩] (.ok t) ∧
      compile checks t = .ok q ∧ compile checks source = .ok r ∧ q.config.binding = r.config.binding ∧
      q.auth = r.auth ∧ q.credentials = r.credentials ∧ q.suspend = r.suspend := by
  have reads {stored : ConfigMap} {t : Snapshot} (accepts : c.Accepts checks codec stored t) :
      (c.read checks codec).run.Returns [⟨.getMap c.mapName, .ok stored⟩] (.ok t) :=
    Attempt.returns_bind_ok.mpr ⟨[_], [], stored, rfl, Program.returns_ask.mpr ⟨.ok stored, [], rfl, .start _⟩,
      Attempt.returns_result_ok.mpr ⟨rfl, decode_ok.mpr accepts⟩⟩
  cases saved with
  | @unchanged p prepared current =>
    have candidate := prepare_ok faithful prepared
    obtain ⟨r, resolved⟩ := candidate.accepted
    obtain ⟨old, previous, accepts, compiled, sameUID, same, ⟨_, text⟩ | ⟨⟨⟩⟩⟩ := replace_ok current
    have kept := candidate.accepts faithful accepts.space accepts.name accepts.owner accepts.kind
      (accepts.annotated.trans sameUID) text
    exact ⟨cm, p.snapshot, p.resolved, r, rfl, reads kept, candidate.compiled, resolved, candidate.resolves resolved⟩
  | @written p sent stored _ prepared replaces keeps answered =>
    have candidate := prepare_ok faithful prepared
    obtain ⟨r, resolved⟩ := candidate.accepted
    obtain ⟨old, previous, accepts, compiled, sameUID, same, ⟨⟨⟩, _⟩ | sends⟩ := replace_ok replaces
    cases sends
    exact ⟨stored, p.snapshot, p.resolved, r, rfl, reads (candidate.replaced faithful accepts sameUID keeps),
      candidate.compiled, resolved, candidate.resolves resolved⟩

/-- A ConfigMap that is no checkpoint of the scale set stays as it is. -/
theorem Saves.foreign {saves : List (Snapshot × Option GoError)} (foreign : ∀ t, ¬ c.Accepts checks codec cm t)
    (run : Saves checks codec c before saves after) (present : before = some cm) : after = some cm := by
  induction run with
  | none => exact present
  | save run occurs _ ih =>
    subst present
    refine ih ?_
    cases save_existing run occurs with
    | rejected => rfl
    | unchanged => rfl
    | written prepared replaces keeps answered =>
      obtain ⟨old, _, accepts, _⟩ := replace_ok replaces
      exact absurd accepts (foreign old)

/-- The accepted binding is immutable: calls of `Save` on an existing checkpoint keep its
    UID and its binding; one that fails leaves the ConfigMap as it was, unless the API made
    the write and its answer was lost; one that succeeds can be read back. -/
theorem checkpoint_binding_immutable (faithful : codec.Faithful) (cm : ConfigMap) :
    (∀ t r saves after, c.Accepts checks codec cm t → compile checks t = .ok r →
      Saves checks codec c (some cm) saves after →
        Bound checks codec c t.scaleSet.metadata.uid r.config.binding after) ∧
    (∀ saves after, (∀ t, ¬ c.Accepts checks codec cm t) → Saves checks codec c (some cm) saves after →
      after = some cm) ∧
    (∀ source trace e after, (c.save checks codec source).Returns trace (some e) → Undisturbed (some cm) trace after →
      after = some cm ∨ ∃ sent stored, ⟨.updateMap sent, some e⟩ ∈ trace ∧ Keeps sent stored ∧ after = some stored) ∧
    ∀ source trace after, (c.save checks codec source).Returns trace none → Undisturbed (some cm) trace after →
      ∃ stored t q r, after = some stored ∧
        (c.read checks codec).run.Returns [⟨.getMap c.mapName, .ok stored⟩] (.ok t) ∧
        compile checks t = .ok q ∧ compile checks source = .ok r ∧ q.config.binding = r.config.binding ∧
        q.auth = r.auth ∧ q.credentials = r.credentials ∧ q.suspend = r.suspend := by
  refine ⟨fun t r saves after accepts compiled run => ?_, fun saves after foreign run => run.foreign foreign rfl,
    fun source trace e after run occurs => ?_, fun source trace after run occurs => ?_⟩
  · exact run.bound faithful ⟨cm, t, r, rfl, accepts, rfl, accepts.annotated, compiled, rfl⟩
  · cases save_existing run occurs with
    | rejected => exact .inl rfl
    | @written p sent stored _ _ _ keeps answered => exact .inr ⟨sent, stored, answered, keeps, rfl⟩
  · exact (save_existing run occurs).readable faithful

end Save

/-! ## The small scale set -/

/-- An encoding of two snapshots only. -/
def smallCodec : Codec where
  marshal s :=
    if s.toSeconds = smallSnapshot then some "small" else if s.toSeconds = suspendedSnapshot then some "suspended" else none
  unmarshal text := .ok (if text = "small" then smallSnapshot else suspendedSnapshot)
  decoder text := some (if text = "small" then smallSnapshot else suspendedSnapshot, true)

theorem smallCodec_faithful : smallCodec.Faithful := by
  have cases (s : Snapshot) (text : String) (marshalled : smallCodec.marshal s = some text) :
      (text = "small" ∧ s.toSeconds = smallSnapshot) ∨ (text = "suspended" ∧ s.toSeconds = suspendedSnapshot) := by
    simp only [smallCodec] at marshalled
    split at marshalled
    · cases marshalled
      exact .inl ⟨rfl, ‹_›⟩
    · split at marshalled
      · cases marshalled
        exact .inr ⟨rfl, ‹_›⟩
      · cases marshalled
  refine ⟨fun s text marshalled => ?_, fun s text marshalled => ?_, fun s text marshalled => ?_⟩
  all_goals obtain ⟨rfl, same⟩ | ⟨rfl, same⟩ := cases s text marshalled
  · rw [same]
    rfl
  · rw [same]
    rfl
  · rw [same]
    rfl
  · rw [same]
    rfl
  · decide
  · decide

def smallCheckpoints : Checkpoints where
  space := "ci"
  name := "linux"

/-- The checkpoint of the small scale set. -/
def smallCheckpoint : ConfigMap where
  metadata :=
    { name := "linux-configuration"
      space := "ci"
      labels := ((∅ : GoMap String String).insert "runnerscout/owner" "linux").insert "runnerscout/kind" "configuration"
      annotations := (∅ : GoMap String String).insert "runnerscout.io/scale-set-uid" "1b4e28ba" }
  data := (∅ : GoMap String String).insert "snapshot" "small"

def suspendedCheckpoint : ConfigMap :=
  { smallCheckpoint with data := smallCheckpoint.data.insert "snapshot" "suspended" }

def smallStore : (call : Call) → Answer call
  | .getMap _ => .ok smallCheckpoint
  | call => quiet call

/-- The small scale set is suspended. -/
theorem checkpoint_binding_immutable_suspended :
    ∃ r trace, (smallCheckpoints.save plainChecks smallCodec suspendedSnapshot).Returns trace none ∧
      Undisturbed (some smallCheckpoint) trace (some suspendedCheckpoint) ∧
      Bound plainChecks smallCodec smallCheckpoints "1b4e28ba" r (some suspendedCheckpoint) := by
  have accepts : smallCheckpoints.Accepts plainChecks smallCodec smallCheckpoint smallSnapshot := decode_ok.mp rfl
  obtain ⟨r, compiled⟩ := accepts.compiled
  have run : (smallCheckpoints.save plainChecks smallCodec suspendedSnapshot).Returns
      [⟨.getMap "linux-configuration", .ok smallCheckpoint⟩, ⟨.updateMap suspendedCheckpoint, none⟩] none :=
    Program.returns_respond (S := Calls) smallStore (smallCheckpoints.save plainChecks smallCodec suspendedSnapshot)
  have occurs : Undisturbed (some smallCheckpoint)
      [⟨.getMap "linux-configuration", .ok smallCheckpoint⟩, ⟨.updateMap suspendedCheckpoint, none⟩]
      (some suspendedCheckpoint) :=
    .exchange ⟨rfl, rfl⟩ (.exchange ⟨nofun, suspendedCheckpoint, rfl, .refl _⟩ (.rest _))
  have bound := (checkpoint_binding_immutable smallCodec_faithful smallCheckpoint).1 smallSnapshot r _ _ accepts compiled
    (.save run occurs (.none _))
  exact ⟨r.config.binding, _, run, occurs, bound⟩

end RunnerScout.Configapi
