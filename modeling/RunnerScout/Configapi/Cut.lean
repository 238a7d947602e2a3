import RunnerScout.Configapi.Load
import RunnerScout.Interaction.History

/-! # A load is a consistent cut

A configuration object that is found twice in one version did not change in between.
All configuration objects are looked at before the Secrets and again after them, and
all Secrets are looked at twice in a row.  So there is a moment, after the last Secret
was first read, at which everything that was returned was there together.
-/

namespace RunnerScout.Configapi

open Interaction

variable {resource : String} {u : Unstructured} {o : Secret} {σ : Type} {decode : Spec → Option σ}
  {c c' moment : Cluster} {rev : Revision} {revisions : List Revision} {value : List UInt8} {resolved : Resolved}
  {order : List String}

/-! ## The cluster -/

inductive Slot where
  | object (resource space name : String)
  | secret (name : String)
deriving DecidableEq

inductive Stored where
  | object (u : Unstructured)
  | secret (o : Secret)

def Stored.metadata : Stored → ObjectMeta
  | .object u => u.metadata
  | .secret o => o.metadata

/-- An object's identity, and which of its writes it is at. -/
def version (stored : Stored) : String × String := (stored.metadata.uid, stored.metadata.resourceVersion)

/-- The configuration objects and Secrets of a cluster.  Every write of an object has a
    resource version of its own, and an object that is created again has another UID. -/
abbrev Cluster := Versions Slot Stored (String × String) version

/-- What a cluster answers to a read, unless the read fails. -/
def Answers (c : Cluster) : Exchange Calls → Prop
  | ⟨.get resource space name, .ok u⟩ => c.current (.object resource space name) = some (.object u)
  | ⟨.getSecret name, .ok o⟩ => c.current (.secret name) = some (.secret o)
  | ⟨.rangeOrder keys, order⟩ => order.Perm keys
  | _ => True

/-- The exchanges of one process, and any writers between them. -/
abbrev Cluster.Sees : Cluster → List (Exchange Calls) → Cluster → Prop :=
  Occurs (Versions.Reading Answers) Versions.Written

/-! ## Configuration objects -/

section Objects

variable {space : String} {trace : List (Exchange Calls)}

theorem returns_asked {call : Call} {answer : Answer call} :
    (ask call).Returns trace answer ↔ trace = [⟨call, answer⟩] := by
  show (Program.call (S := Calls) call .done).Returns trace answer ↔ _
  rw [Program.returns_call]
  constructor
  · rintro ⟨reply, later, rfl, run⟩
    obtain ⟨rfl, rfl⟩ := Program.returns_done.mp run
    rfl
  · rintro rfl
    exact ⟨answer, [], rfl, .start _⟩

theorem returns_get {name : String} {message : GoError}
    (run : ((Attempt.of (ask (.get resource space name))).orElse message).run.Returns trace (.ok u)) :
    trace = [⟨.get resource space name, .ok u⟩] :=
  returns_asked.mp (Attempt.returns_of.mp (Attempt.returns_orElse_ok.mp run))

theorem returns_getSecret {name : String} {message : GoError}
    (run : ((Attempt.of (ask (.getSecret name))).orElse message).run.Returns trace (.ok o)) :
    trace = [⟨.getSecret name, .ok o⟩] :=
  returns_asked.mp (Attempt.returns_of.mp (Attempt.returns_orElse_ok.mp run))

/-- The object of a configuration, as the strict decoder shows it. -/
structure Shows {σ : Type} (u : Unstructured) (decode : Spec → Option σ) (c : Configuration σ) : Prop where
  metadata : c.metadata = u.metadata
  spec : decode u.spec = some c.spec
  status : c.status = u.status

/-- The read that a revision was taken of. -/
def Fetched (space : String) (x : Exchange Calls) (rev : Revision) : Prop :=
  ∃ u : Unstructured, x = ⟨.get rev.resource space rev.name, .ok u⟩ ∧ rev = u.revision rev.resource rev.name

theorem getObject_ok {kind name : String} {c : Configuration σ}
    (run : (getObject space resource kind name decode).run.Returns trace (.ok (c, rev))) :
    ∃ u : Unstructured, trace = [⟨.get resource space name, .ok u⟩] ∧ Shows u decode c ∧ rev = u.revision resource name := by
  obtain ⟨first, second, u, rfl, got, checked⟩ := Attempt.returns_bind_ok.mp run
  obtain rfl := returns_get got
  refine ⟨u, ?_⟩
  split at checked
  · exact absurd checked Attempt.not_returns_throw
  split at checked
  · exact absurd checked Attempt.not_returns_throw
  split at checked
  · exact absurd checked Attempt.not_returns_throw
  · rename_i spec decoded
    obtain ⟨rfl, same⟩ := Attempt.returns_pure_ok.mp checked
    cases same
    exact ⟨rfl, ⟨rfl, decoded, rfl⟩, rfl⟩

/-- One read more, and its revision. -/
theorem Fetched.of_getObject {kind name : String} {c : Configuration σ}
    (run : (getObject space resource kind name decode).run.Returns trace (.ok (c, rev))) :
    List.Forall₂ (Fetched space) trace [rev] := by
  obtain ⟨u, rfl, _, rfl⟩ := getObject_ok run
  exact .cons ⟨u, rfl, rfl⟩ .nil

/-- The objects found by name, where a trace tells. -/
def Tells (find : String → String → Option Unstructured) (space : String) (trace : List (Exchange Calls)) : Prop :=
  ∀ resource name u, (⟨.get resource space name, .ok u⟩ : Exchange Calls) ∈ trace → find resource name = some u

theorem Tells.of_append {find : String → String → Option Unstructured} {first second : List (Exchange Calls)}
    (tells : Tells find space (first ++ second)) : Tells find space first ∧ Tells find space second :=
  ⟨fun _ _ _ member => tells _ _ _ (List.mem_append_left _ member),
    fun _ _ _ member => tells _ _ _ (List.mem_append_right _ member)⟩

/-- An object that is found, decoded. -/
def Found {σ : Type} (find : String → String → Option Unstructured) (resource name : String) (decode : Spec → Option σ)
    (c : Configuration σ) : Prop :=
  ∃ u, find resource name = some u ∧ Shows u decode c

variable (find : String → String → Option Unstructured)

theorem Tells.getObject {find : String → String → Option Unstructured} {kind name : String} {c : Configuration σ}
    (tells : Tells find space trace)
    (run : (getObject space resource kind name decode).run.Returns trace (.ok (c, rev))) :
    Found find resource name decode c := by
  obtain ⟨u, rfl, shows, _⟩ := getObject_ok run
  exact ⟨u, tells _ _ _ List.mem_cons_self, shows⟩

theorem getProviders_ok {refs : List String} {providers found : GoMap String ProviderConfig} {result : List Revision}
    (run : (getProviders space refs providers revisions).run.Returns trace (.ok (found, result))) :
    (∃ more, result = revisions ++ more ∧ List.Forall₂ (Fetched space) trace more) ∧
      (Tells find space trace → ∀ ref p, found.lookup ref = some p →
        providers.lookup ref = some p ∨ Found find "providerconfigs" ref Spec.provider? p) := by
  induction refs generalizing providers revisions trace with
  | nil =>
    obtain ⟨rfl, same⟩ := Attempt.returns_pure_ok.mp run
    cases same
    exact ⟨⟨[], (List.append_nil _).symm, .nil⟩, fun _ _ _ known => .inl known⟩
  | cons ref rest ih =>
    unfold getProviders at run
    split at run
    · exact absurd run Attempt.not_returns_throw
    · obtain ⟨first, second, ⟨p, rev⟩, rfl, got, run⟩ := Attempt.returns_bind_ok.mp run
      obtain ⟨⟨more, rfl, fetched⟩, known⟩ := ih run
      constructor
      · refine ⟨rev :: more, by rw [List.append_assoc]; rfl, ?_⟩
        exact List.rel_append (Fetched.of_getObject got) fetched
      · intro tells name q member
        obtain ⟨here, later⟩ := tells.of_append
        obtain inserted | found := known later name q member
        · by_cases same : name = ref
          · subst same
            rw [AList.lookup_insert] at inserted
            cases inserted
            exact .inr (here.getObject got)
          · rw [AList.lookup_insert_ne same] at inserted
            exact .inl inserted
        · exact .inr found

theorem getReferenced_ok {kind : String} {result : List Revision} {ref : Option String} {c : Option (Configuration σ)}
    (run : (getReferenced space resource kind decode revisions ref).run.Returns trace (.ok (c, result))) :
    (∃ more, result = revisions ++ more ∧ List.Forall₂ (Fetched space) trace more) ∧
      (Tells find space trace → ∀ object, c = some object → ∃ name, ref = some name ∧ Found find resource name decode object) := by
  cases ref with
  | none =>
    obtain ⟨rfl, same⟩ := Attempt.returns_pure_ok.mp run
    cases same
    exact ⟨⟨[], (List.append_nil _).symm, .nil⟩, fun _ _ => nofun⟩
  | some name =>
    obtain ⟨first, second, ⟨object, rev⟩, rfl, got, run⟩ := Attempt.returns_bind_ok.mp run
    obtain ⟨rfl, same⟩ := Attempt.returns_pure_ok.mp run
    cases same
    rw [List.append_nil]
    refine ⟨⟨[rev], rfl, Fetched.of_getObject got⟩, fun tells other same => ?_⟩
    cases same
    exact ⟨name, rfl, tells.getObject got⟩

/-- The objects of a snapshot, where they are found. -/
structure Stands (find : String → String → Option Unstructured) (name : String) (s : Snapshot) : Prop where
  scaleSet : Found find "runnerscalesets" name Spec.scaleSet? s.scaleSet
  runnerClass : Found find "runnerclasses" s.scaleSet.spec.runnerClassRef Spec.class? s.runnerClass
  catalog : Found find "capacitycatalogs" s.runnerClass.spec.catalogRef Spec.catalog? s.catalog
  providers : ∀ ref p, s.providers.lookup ref = some p → Found find "providerconfigs" ref Spec.provider? p
  network : ∀ n, s.network = some n →
    ∃ ref, s.runnerClass.spec.networkRef = some ref ∧ Found find "networkprofiles" ref Spec.network? n
  budget : ∀ b, s.budget = some b →
    ∃ ref, s.scaleSet.spec.budgetRef = some ref ∧ Found find "capacitybudgets" ref Spec.budget? b

theorem collect_ok {name : String} {s : Snapshot} (run : (collect space name).run.Returns trace (.ok (s, revisions))) :
    List.Forall₂ (Fetched space) trace revisions ∧ (Tells find space trace → Stands find name s) := by
  obtain ⟨t₁, _, ⟨scaleSet, rev₁⟩, rfl, got₁, run⟩ := Attempt.returns_bind_ok.mp run
  obtain ⟨t₂, _, ⟨runnerClass, rev₂⟩, rfl, got₂, run⟩ := Attempt.returns_bind_ok.mp run
  obtain ⟨t₃, _, ⟨catalog, rev₃⟩, rfl, got₃, run⟩ := Attempt.returns_bind_ok.mp run
  dsimp only at run
  split at run
  · exact absurd run Attempt.not_returns_throw
  obtain ⟨t₄, _, ⟨providers, revs₄⟩, rfl, got₄, run⟩ := Attempt.returns_bind_ok.mp run
  obtain ⟨t₅, _, ⟨network, revs₅⟩, rfl, got₅, run⟩ := Attempt.returns_bind_ok.mp run
  obtain ⟨t₆, _, ⟨budget, revs₆⟩, rfl, got₆, run⟩ := Attempt.returns_bind_ok.mp run
  obtain ⟨rfl, same⟩ := Attempt.returns_pure_ok.mp run
  cases same
  obtain ⟨⟨more₄, rfl, fetched₄⟩, known₄⟩ := getProviders_ok find got₄
  obtain ⟨⟨more₅, rfl, fetched₅⟩, known₅⟩ := getReferenced_ok find got₅
  obtain ⟨⟨more₆, rfl, fetched₆⟩, known₆⟩ := getReferenced_ok find got₆
  constructor
  · have fetched := List.rel_append (Fetched.of_getObject got₁) (List.rel_append (Fetched.of_getObject got₂)
      (List.rel_append (Fetched.of_getObject got₃) (List.rel_append fetched₄ (List.rel_append fetched₅ fetched₆))))
    simpa using fetched
  · intro tells
    obtain ⟨here₁, tells⟩ := tells.of_append
    obtain ⟨here₂, tells⟩ := tells.of_append
    obtain ⟨here₃, tells⟩ := tells.of_append
    obtain ⟨here₄, tells⟩ := tells.of_append
    obtain ⟨here₅, tells⟩ := tells.of_append
    obtain ⟨here₆, _⟩ := tells.of_append
    refine ⟨here₁.getObject got₁, here₂.getObject got₂, here₃.getObject got₃, fun ref p known => ?_,
      known₅ here₅, known₆ here₆⟩
    obtain none | found := known₄ here₄ ref p known
    · cases none
    · exact found

/-- The read that confirmed a revision. -/
def Rechecked (space : String) (x : Exchange Calls) (rev : Revision) : Prop :=
  ∃ u : Unstructured, x = ⟨.get rev.resource space rev.name, .ok u⟩ ∧
    version (.object u) = (rev.uid, rev.resourceVersion)

theorem recheck_ok (run : (recheck space revisions).run.Returns trace (.ok ())) :
    List.Forall₂ (Rechecked space) trace revisions := by
  induction revisions generalizing trace with
  | nil =>
    obtain ⟨rfl, _⟩ := Attempt.returns_pure_ok.mp run
    exact .nil
  | cons rev rest ih =>
    obtain ⟨first, second, u, rfl, got, checked⟩ := Attempt.returns_bind_ok.mp run
    obtain rfl := returns_get got
    split at checked
    · exact absurd checked Attempt.not_returns_throw
    · rename_i unchanged
      simp only [not_or, ne_eq, Decidable.not_not] at unchanged
      exact .cons ⟨u, rfl, Prod.ext unchanged.1 unchanged.2.1⟩ (ih checked)

theorem read_ok {checks : Checks} {name : String} {s : Snapshot}
    (run : (read checks space name).run.Returns trace (.ok (s, revisions))) :
    ∃ gets rechecks, trace = gets ++ rechecks ∧ (collect space name).run.Returns gets (.ok (s, revisions)) ∧
      (recheck space revisions).run.Returns rechecks (.ok ()) := by
  obtain ⟨gets, _, ⟨s, revisions⟩, rfl, collected, later⟩ := Attempt.returns_bind_ok.mp run
  obtain ⟨rechecks, _, ⟨⟩, rfl, rechecked, checking⟩ := Attempt.returns_bind_ok.mp later
  obtain ⟨_, _, _, rfl, compiled, ending⟩ := Attempt.returns_bind_ok.mp checking
  obtain ⟨rfl, _⟩ := Attempt.returns_result_ok.mp compiled
  obtain ⟨rfl, same⟩ := Attempt.returns_pure_ok.mp ending
  cases same
  exact ⟨gets, rechecks, by simp, collected, rechecked⟩

end Objects

/-! ## Secrets -/

/-- Every Secret that a run reads is among those it knows afterwards, and it forgets
    none. -/
structure Gathers (objects : GoMap String Secret) (trace : List (Exchange Calls)) (known : GoMap String Secret) :
    Prop where
  keeps : ∀ name o, objects.lookup name = some o → known.lookup name = some o
  reads : ∀ x ∈ trace, (∃ keys order, x = ⟨.rangeOrder keys, order⟩) ∨
    ∃ name o, x = ⟨.getSecret name, .ok o⟩ ∧ known.lookup name = some o
  sources : ∀ name o, known.lookup name = some o →
    objects.lookup name = some o ∨ (⟨.getSecret name, .ok o⟩ : Exchange Calls) ∈ trace

namespace Gathers

variable {objects middle known : GoMap String Secret} {trace first second : List (Exchange Calls)}

theorem refl (objects : GoMap String Secret) : Gathers objects [] objects :=
  ⟨fun _ _ found => found, by simp, fun _ _ found => .inl found⟩

theorem trans (begins : Gathers objects first middle) (ends : Gathers middle second known) :
    Gathers objects (first ++ second) known where
  keeps := fun name o found => ends.keeps name o (begins.keeps name o found)
  reads := by
    intro x member
    obtain earlier | later := List.mem_append.mp member
    · obtain range | ⟨name, o, rfl, found⟩ := begins.reads x earlier
      · exact .inl range
      · exact .inr ⟨name, o, rfl, ends.keeps name o found⟩
    · exact ends.reads x later
  sources := by
    intro name o found
    obtain found | read := ends.sources name o found
    · exact (begins.sources name o found).imp_right (List.mem_append_left _)
    · exact .inr (List.mem_append_right _ read)

theorem range (keys order : List String) (objects : GoMap String Secret) :
    Gathers objects [⟨.rangeOrder keys, order⟩] objects where
  keeps := fun _ _ found => found
  reads := by
    intro x member
    obtain rfl := List.mem_singleton.mp member
    exact .inl ⟨keys, order, rfl⟩
  sources := fun _ _ found => .inl found

theorem source {name : String} (gathers : Gathers ∅ trace known) (found : known.lookup name = some o) :
    (⟨.getSecret name, .ok o⟩ : Exchange Calls) ∈ trace := by
  obtain none | read := gathers.sources name o found
  · cases none
  · exact read

end Gathers

/-- The loops over maps visit every key once. -/
def Ranges (trace : List (Exchange Calls)) : Prop :=
  ∀ keys order, (⟨.rangeOrder keys, order⟩ : Exchange Calls) ∈ trace → order.Perm keys

theorem Ranges.of_append {first second : List (Exchange Calls)} (ranges : Ranges (first ++ second)) :
    Ranges first ∧ Ranges second :=
  ⟨fun _ _ member => ranges _ _ (List.mem_append_left _ member),
    fun _ _ member => ranges _ _ (List.mem_append_right _ member)⟩

section Secrets

variable {checks : Checks} {sha256 : List UInt8 → String} {space kind : String} {trace : List (Exchange Calls)}
  {objects known : GoMap String Secret}

theorem fetchSecret_ok {name : String} (run : (fetchSecret space objects name).run.Returns trace (.ok (o, known))) :
    Gathers objects trace known ∧ known.lookup name = some o ∧ ∀ other ∈ known, other ∈ objects ∨ other = name := by
  unfold fetchSecret at run
  split at run
  · rename_i object found
    obtain ⟨rfl, same⟩ := Attempt.returns_pure_ok.mp run
    cases same
    exact ⟨.refl _, found, fun _ => .inl⟩
  · rename_i unknown
    obtain ⟨first, second, object, rfl, got, checked⟩ := Attempt.returns_bind_ok.mp run
    obtain rfl := returns_getSecret got
    split at checked
    · exact absurd checked Attempt.not_returns_throw
    · obtain ⟨rfl, same⟩ := Attempt.returns_pure_ok.mp checked
      obtain ⟨rfl, rfl⟩ := Prod.mk.inj same
      refine ⟨⟨fun other o found => ?_, ?_, fun other o found => ?_⟩, AList.lookup_insert _,
        fun other member => ((AList.mem_insert _).mp member).symm⟩
      · rw [AList.lookup_insert_ne]
        · exact found
        · rintro rfl
          rw [unknown] at found
          cases found
      · intro x member
        obtain rfl := List.mem_singleton.mp member
        exact .inr ⟨name, o, rfl, AList.lookup_insert _⟩
      · by_cases same : other = name
        · subst same
          rw [AList.lookup_insert] at found
          cases found
          exact .inr List.mem_cons_self
        · rw [AList.lookup_insert_ne same] at found
          exact .inl found

theorem secretValue_ok {key : String} (ok : secretValue o key = .ok value) :
    o.data.lookup key = some value := by
  unfold secretValue at ok
  split at ok
  · cases ok
  · rename_i found
    split at ok
    · cases ok
    · cases ok
      exact found

/-- The value of a reference, in the Secrets that are known. -/
def Refers (known : GoMap String Secret) (ref : SecretKeyReference) (value : List UInt8) : Prop :=
  ∃ o, known.lookup ref.name = some o ∧ o.data.lookup ref.key = some value

theorem Refers.mono {first : List (Exchange Calls)} {ref : SecretKeyReference} (refers : Refers objects ref value)
    (gathers : Gathers objects first known) : Refers known ref value := by
  obtain ⟨o, found, data⟩ := refers
  exact ⟨o, gathers.keeps _ _ found, data⟩

theorem readSecret_ok {ref : SecretKeyReference}
    (run : (readSecret checks space objects ref).run.Returns trace (.ok (value, known))) :
    Gathers objects trace known ∧ Refers known ref value ∧ ∀ name ∈ known, name ∈ objects ∨ name = ref.name := by
  obtain ⟨_, _, ⟨⟩, rfl, checked, later⟩ := Attempt.returns_bind_ok.mp run
  obtain ⟨rfl, _⟩ := Attempt.returns_result_ok.mp checked
  obtain ⟨fetch, _, ⟨o, fetched⟩, rfl, got, reading⟩ := Attempt.returns_bind_ok.mp later
  obtain ⟨_, _, found, rfl, looked, ending⟩ := Attempt.returns_bind_ok.mp reading
  obtain ⟨rfl, data⟩ := Attempt.returns_result_ok.mp looked
  obtain ⟨rfl, same⟩ := Attempt.returns_pure_ok.mp ending
  cases same
  obtain ⟨gathers, here, names⟩ := fetchSecret_ok got
  exact ⟨by simpa using gathers, ⟨o, here, secretValue_ok data⟩, names⟩

theorem readGitHub_ok {token : List UInt8}
    (run : (readGitHub checks resolved objects).run.Returns trace (.ok (token, known))) :
    Gathers objects trace known ∧
      (∃ value, Refers known resolved.auth.secretRef value ∧
        token = if resolved.auth.mode = "pat" then trimSpaceBytes value else value) ∧
      ∀ name ∈ known, name ∈ objects ∨ name = resolved.auth.secretRef.name := by
  obtain ⟨first, _, ⟨value, objects'⟩, rfl, got, checked⟩ := Attempt.returns_bind_ok.mp run
  obtain ⟨gathers, refers, names⟩ := readSecret_ok got
  split at checked
  · rename_i pat
    dsimp only at checked
    split at checked
    · exact absurd checked Attempt.not_returns_throw
    · obtain ⟨rfl, same⟩ := Attempt.returns_pure_ok.mp checked
      obtain ⟨rfl, rfl⟩ := Prod.mk.inj same
      exact ⟨by simpa using gathers, ⟨value, refers, by rw [if_pos pat]⟩, names⟩
  · rename_i app
    obtain ⟨rfl, same⟩ := Attempt.returns_pure_ok.mp checked
    obtain ⟨rfl, rfl⟩ := Prod.mk.inj same
    exact ⟨by simpa using gathers, ⟨_, refers, by rw [if_neg app]⟩, names⟩

/-- A Secret that some variable refers to. -/
def RefersTo (refs : GoMap String SecretKeyReference) (name : String) : Prop :=
  ∃ key ref, refs.lookup key = some ref ∧ ref.name = name

/-- The value of a variable that is referred to is the one of its Secret. -/
def Resolves (refs : GoMap String SecretKeyReference) (known : GoMap String Secret) (values : GoMap String (List UInt8))
    (name : String) : Prop :=
  ∀ ref, refs.lookup name = some ref → ∃ value, Refers known ref value ∧ values.lookup name = some value

theorem readVariables_ok {refs : GoMap String SecretKeyReference} {values result : GoMap String (List UInt8)}
    (run : (readVariables checks space kind refs order values objects).run.Returns trace (.ok (result, known))) :
    Gathers objects trace known ∧
      (∀ name, name ∈ order ∨ Resolves refs objects values name → Resolves refs known result name) ∧
      ∀ name ∈ known, name ∈ objects ∨ RefersTo refs name := by
  induction order generalizing values objects trace with
  | nil =>
    obtain ⟨rfl, same⟩ := Attempt.returns_pure_ok.mp run
    obtain ⟨rfl, rfl⟩ := Prod.mk.inj same
    exact ⟨.refl _, fun name => Or.rec nofun id, fun _ => .inl⟩
  | cons current rest ih =>
    unfold readVariables at run
    split at run
    · rename_i absent
      obtain ⟨gathers, resolves, names⟩ := ih run
      refine ⟨gathers, fun name member => resolves name ?_, names⟩
      rw [List.mem_cons, or_assoc] at member
      obtain rfl | member := member
      · refine .inr fun ref found => ?_
        rw [absent] at found
        cases found
      · exact member
    · rename_i ref present
      split at run
      · exact absurd run Attempt.not_returns_throw
      · obtain ⟨first, second, ⟨value, objects'⟩, rfl, got, later⟩ := Attempt.returns_bind_ok.mp run
        obtain ⟨gathers, refers, names⟩ := readSecret_ok got
        split at later
        · exact absurd later Attempt.not_returns_throw
        · obtain ⟨gathers', resolves, names'⟩ := ih later
          refine ⟨gathers.trans gathers', fun name member => resolves name ?_, fun name member => ?_⟩
          rotate_left
          · obtain before | refersTo := names' name member
            · exact (names name before).imp_right fun same => ⟨current, ref, present, same.symm⟩
            · exact .inr refersTo
          by_cases same : name = current
          · subst same
            refine .inr fun other found => ?_
            rw [present] at found
            cases found
            exact ⟨value, refers, AList.lookup_insert _⟩
          · refine member.imp (fun listed => (List.mem_cons.mp listed).resolve_left same) fun before other found => ?_
            obtain ⟨value, refers, kept⟩ := before other found
            exact ⟨value, refers.mono gathers, by rwa [AList.lookup_insert_ne same]⟩

/-- Every variable of a provider is resolved. -/
def ResolvesAll (resolved : Resolved) (known : GoMap String Secret) (providers : GoMap String (GoMap String (List UInt8)))
    (provider : String) : Prop :=
  ∀ refs, resolved.credentials.lookup provider = some refs →
    ∃ values, providers.lookup provider = some values ∧ ∀ name, Resolves refs known values name

theorem Resolves.mono {refs : GoMap String SecretKeyReference} {values : GoMap String (List UInt8)} {name : String}
    (resolves : Resolves refs objects values name) (gathers : Gathers objects trace known) :
    Resolves refs known values name := by
  intro ref found
  obtain ⟨value, refers, there⟩ := resolves ref found
  exact ⟨value, refers.mono gathers, there⟩

theorem readProviders_ok {providers result : GoMap String (GoMap String (List UInt8))}
    (run : (readProviders checks resolved order providers objects).run.Returns trace (.ok (result, known)))
    (ranges : Ranges trace) :
    Gathers objects trace known ∧
      (∀ provider, provider ∈ order ∨ ResolvesAll resolved objects providers provider →
        ResolvesAll resolved known result provider) ∧
      ∀ name ∈ known, name ∈ objects ∨ ∃ provider refs, resolved.credentials.lookup provider = some refs ∧
        RefersTo refs name := by
  induction order generalizing providers objects trace with
  | nil =>
    obtain ⟨rfl, same⟩ := Attempt.returns_pure_ok.mp run
    obtain ⟨rfl, rfl⟩ := Prod.mk.inj same
    exact ⟨.refl _, fun name => Or.rec nofun id, fun _ => .inl⟩
  | cons current rest ih =>
    unfold readProviders at run
    split at run
    · rename_i absent
      obtain ⟨gathers, resolves, names⟩ := ih run ranges
      refine ⟨gathers, fun provider member => resolves provider ?_, names⟩
      rw [List.mem_cons, or_assoc] at member
      obtain rfl | member := member
      · refine .inr fun refs found => ?_
        rw [absent] at found
        cases found
      · exact member
    · rename_i refs present
      split at run
      · exact absurd run Attempt.not_returns_throw
      · obtain ⟨first, _, order', rfl, asked, later⟩ := Attempt.returns_bind_ok.mp run
        obtain rfl := returns_asked.mp (Attempt.returns_lift_ok.mp asked)
        obtain ⟨second, third, ⟨values, objects'⟩, rfl, got, going⟩ := Attempt.returns_bind_ok.mp later
        obtain ⟨gathers, resolved', names⟩ := readVariables_ok got
        have visits : order'.Perm refs.keys := ranges _ _ (List.mem_append_left _ List.mem_cons_self)
        obtain ⟨gathers', resolves, names'⟩ := ih going ranges.of_append.2.of_append.2
        refine ⟨(Gathers.range _ _ _).trans (gathers.trans gathers'), fun provider member => resolves provider ?_,
          fun name member => ?_⟩
        rotate_left
        · obtain before | refersTo := names' name member
          · exact (names name before).imp_right fun refersTo => ⟨current, refs, present, refersTo⟩
          · exact .inr refersTo
        by_cases same : provider = current
        · subst same
          refine .inr fun other found => ?_
          rw [present] at found
          cases found
          refine ⟨values, AList.lookup_insert _, fun name ref found => ?_⟩
          have listed : name ∈ order' := visits.mem_iff.mpr
            (AList.mem_keys.mp (GoMap.mem_iff.mpr ⟨ref, found⟩))
          exact resolved' name (.inl listed) ref found
        · refine member.imp (fun listed => (List.mem_cons.mp listed).resolve_left same) fun before other found => ?_
          obtain ⟨values, kept, all⟩ := before other found
          exact ⟨values, by rwa [AList.lookup_insert_ne same], fun name => (all name).mono gathers⟩

/-- The second reading, and the revisions it yields. -/
theorem recheckSecrets_ok {revisions : List SecretRevision}
    (run : (recheckSecrets sha256 objects order).run.Returns trace (.ok revisions)) :
    (∀ x ∈ trace, ∃ name old current, objects.lookup name = some old ∧ x = ⟨.getSecret name, .ok current⟩ ∧
        version (.secret current) = version (.secret old)) ∧
      (∀ name ∈ order, ∀ old, objects.lookup name = some old → ∃ current,
        (⟨.getSecret name, .ok current⟩ : Exchange Calls) ∈ trace ∧
          version (.secret current) = version (.secret old)) ∧
      (∀ rev ∈ revisions, ∃ current, (⟨.getSecret rev.name, .ok current⟩ : Exchange Calls) ∈ trace ∧
        rev = secretRevision sha256 rev.name current) ∧
      revisions.map SecretRevision.name = order.filter fun name => (objects.lookup name).isSome := by
  induction order generalizing trace revisions with
  | nil =>
    obtain ⟨rfl, rfl⟩ := Attempt.returns_pure_ok.mp run
    simp
  | cons name rest ih =>
    unfold recheckSecrets at run
    split at run
    · rename_i absent
      obtain ⟨reads, rereads, revised, names⟩ := ih run
      refine ⟨reads, fun other member old found => ?_, revised, ?_⟩
      · obtain rfl | later := List.mem_cons.mp member
        · rw [absent] at found
          cases found
        · exact rereads other later old found
      · rw [names, List.filter_cons_of_neg (by simp [absent])]
    · rename_i old present
      obtain ⟨first, _, current, rfl, got, checked⟩ := Attempt.returns_bind_ok.mp run
      obtain rfl := returns_getSecret got
      split at checked
      · exact absurd checked Attempt.not_returns_throw
      · rename_i unchanged
        simp only [not_or, ne_eq, Decidable.not_not] at unchanged
        have same : version (.secret current) = version (.secret old) := Prod.ext unchanged.2.2.1 unchanged.2.2.2.1
        obtain ⟨second, _, later, rfl, going, ending⟩ := Attempt.returns_bind_ok.mp checked
        obtain ⟨rfl, rfl⟩ := Attempt.returns_pure_ok.mp ending
        obtain ⟨reads, rereads, revised, names⟩ := ih going
        rw [List.append_nil]
        refine ⟨List.forall_mem_cons.mpr ⟨⟨name, old, current, present, rfl, same⟩, reads⟩,
          fun other member before found => ?_, List.forall_mem_cons.mpr ⟨⟨current, List.mem_cons_self, rfl⟩,
            fun rev member => ?_⟩, ?_⟩
        · obtain rfl | later := List.mem_cons.mp member
          · rw [present] at found
            cases found
            exact ⟨current, List.mem_cons_self, same⟩
          · obtain ⟨current, read, same⟩ := rereads other later before found
            exact ⟨current, List.mem_cons_of_mem _ read, same⟩
        · obtain ⟨current, read, same⟩ := revised rev member
          exact ⟨current, List.mem_cons_of_mem _ read, same⟩
        · rw [List.map_cons, names, List.filter_cons_of_pos (by simp [present])]
          rfl

/-- A Secret that a configuration refers to. -/
def Referenced (resolved : Resolved) (name : String) : Prop :=
  name = resolved.auth.secretRef.name ∨
    ∃ provider refs, resolved.credentials.lookup provider = some refs ∧ RefersTo refs name

theorem resolveSecrets_ok {credentials : Credentials}
    (run : (resolveSecrets checks sha256 resolved).run.Returns trace (.ok credentials)) (ranges : Ranges trace) :
    ∃ reads known order rechecks revisions, trace = reads ++ ⟨.rangeOrder known.keys, order⟩ :: rechecks ∧
      Gathers ∅ reads known ∧
      (∃ value, Refers known resolved.auth.secretRef value ∧
        credentials.gitHub = if resolved.auth.mode = "pat" then trimSpaceBytes value else value) ∧
      (∀ provider, ResolvesAll resolved known credentials.providers provider) ∧
      (recheckSecrets sha256 known order).run.Returns rechecks (.ok revisions) ∧
      credentials.revisions = revisions.insertionSort byName ∧ ∀ name ∈ known, Referenced resolved name := by
  obtain ⟨first, _, ⟨token, objects⟩, rfl, got, later⟩ := Attempt.returns_bind_ok.mp run
  obtain ⟨_, _, order, rfl, asked, reading⟩ := Attempt.returns_bind_ok.mp later
  obtain rfl := returns_asked.mp (Attempt.returns_lift_ok.mp asked)
  obtain ⟨second, _, ⟨providers, known⟩, rfl, read, rereading⟩ := Attempt.returns_bind_ok.mp reading
  obtain ⟨_, _, order', rfl, asked', checking⟩ := Attempt.returns_bind_ok.mp rereading
  obtain rfl := returns_asked.mp (Attempt.returns_lift_ok.mp asked')
  obtain ⟨rechecks, _, revisions, rfl, rechecked, ending⟩ := Attempt.returns_bind_ok.mp checking
  obtain ⟨rfl, rfl⟩ := Attempt.returns_pure_ok.mp ending
  obtain ⟨gathers, ⟨value, refers, token⟩, names⟩ := readGitHub_ok got
  have visits : order.Perm resolved.credentials.keys :=
    ranges _ _ (List.mem_append_right _ (List.mem_append_left _ List.mem_cons_self))
  obtain ⟨gathers', resolves, names'⟩ := readProviders_ok read ranges.of_append.2.of_append.2.of_append.1
  refine ⟨first ++ ([⟨.rangeOrder resolved.credentials.keys, order⟩] ++ second), known, order', rechecks, revisions,
    ?_, gathers.trans ((Gathers.range _ _ _).trans gathers'), ⟨value, refers.mono gathers', token⟩,
    fun provider refs found => ?_, rechecked, rfl, fun name member => ?_⟩
  · simp
  rotate_left
  · obtain before | refersTo := names' name member
    · exact .inl ((names name before).resolve_left (AList.notMem_empty _))
    · exact .inr refersTo
  have listed : provider ∈ order := visits.mem_iff.mpr
    (AList.mem_keys.mp (GoMap.mem_iff.mpr ⟨refs, found⟩))
  exact resolves provider (.inl listed) refs found

end Secrets

/-! ## The cut -/

def Cluster.find (c : Cluster) (space resource name : String) : Option Unstructured :=
  match c.current (.object resource space name) with
  | some (.object u) => some u
  | _ => none

def Cluster.secret (c : Cluster) (name : String) : Option Secret :=
  match c.current (.secret name) with
  | some (.secret o) => some o
  | _ => none

/-- The value of a reference in a cluster. -/
def Cluster.Holds (c : Cluster) (ref : SecretKeyReference) (value : List UInt8) : Prop :=
  ∃ o, c.secret ref.name = some o ∧ o.data.lookup ref.key = some value

/-- Everything that was loaded, where it is there together. -/
structure Cut (sha256 : List UInt8 → String) (space name : String) (l : Loaded) (c : Cluster) : Prop where
  objects : Stands (c.find space) name l.snapshot
  revisions : ∀ rev ∈ l.revisions, ∃ u, c.find space rev.resource rev.name = some u ∧
    rev = u.revision rev.resource rev.name
  gitHub : ∃ value, c.Holds l.resolved.auth.secretRef value ∧
    l.credentials.gitHub = if l.resolved.auth.mode = "pat" then trimSpaceBytes value else value
  credentials : ∀ provider refs, l.resolved.credentials.lookup provider = some refs →
    ∃ values, l.credentials.providers.lookup provider = some values ∧
      ∀ name ref, refs.lookup name = some ref → ∃ value, c.Holds ref value ∧ values.lookup name = some value
  secrets : ∀ rev ∈ l.credentials.revisions, ∃ o, c.secret rev.name = some o ∧ rev = secretRevision sha256 rev.name o

section Cut

variable {checks : Checks} {sha256 : List UInt8 → String} {space name : String} {trace : List (Exchange Calls)}
  {l : Loaded}

/-- The parts of a load. -/
theorem load_ok (run : (load checks sha256 space name).run.Returns trace (.ok l)) :
    ∃ gets rechecks secrets again, trace = gets ++ rechecks ++ secrets ++ again ∧
      (collect space name).run.Returns gets (.ok (l.snapshot, l.revisions)) ∧
      (recheck space l.revisions).run.Returns rechecks (.ok ()) ∧
      compile checks l.snapshot = .ok l.resolved ∧
      (resolveSecrets checks sha256 l.resolved).run.Returns secrets (.ok l.credentials) ∧
      (recheck space l.revisions).run.Returns again (.ok ()) := by
  obtain ⟨first, _, ⟨snapshot, revisions⟩, rfl, collected, later⟩ := Attempt.returns_bind_ok.mp run
  obtain ⟨_, _, resolved, rfl, compiled, reading⟩ := Attempt.returns_bind_ok.mp later
  obtain ⟨rfl, resolves⟩ := Attempt.returns_result_ok.mp compiled
  obtain ⟨secrets, _, credentials, rfl, read, checking⟩ := Attempt.returns_bind_ok.mp reading
  obtain ⟨again, _, ⟨⟩, rfl, rechecked, ending⟩ := Attempt.returns_bind_ok.mp checking
  obtain ⟨rfl, rfl⟩ := Attempt.returns_pure_ok.mp ending
  obtain ⟨gets, rechecks, rfl, got, checked⟩ := read_ok collected
  exact ⟨gets, rechecks, secrets, again, by simp, got, checked, resolves, read, rechecked⟩

theorem Ranges.of_sees (sees : c.Sees trace c') : Ranges trace := by
  intro keys order member
  obtain ⟨front, back, rfl⟩ := List.append_of_mem member
  obtain ⟨_, _, sees⟩ := sees.split
  obtain ⟨_, _, _, ⟨answered, _⟩, _⟩ := sees.happened
  exact answered

theorem find_iff :
    c.find space resource name = some u ↔ c.current (.object resource space name) = some (.object u) := by
  unfold Cluster.find
  split
  · rename_i current
    simp [current]
  · rename_i other
    exact ⟨nofun, fun current => absurd current (other u)⟩

theorem secret_iff : c.secret name = some o ↔ c.current (.secret name) = some (.secret o) := by
  unfold Cluster.secret
  split
  · rename_i current
    simp [current]
  · rename_i other
    exact ⟨nofun, fun current => absurd current (other o)⟩

/-- A configuration object that was read, before a moment or after it, and rechecked. -/
theorem object_pinned {first second : List (Exchange Calls)} (begins : c.Sees first moment)
    (ends : moment.Sees second c') {v : Unstructured}
    (earlier : (⟨.get resource space name, .ok u⟩ : Exchange Calls) ∈ first)
    (later : (⟨.get resource space name, .ok v⟩ : Exchange Calls) ∈ second)
    (same : version (.object v) = version (.object u)) :
    moment.current (.object resource space name) = some (.object u) ∧ v = u := by
  obtain ⟨current, equal⟩ := Versions.read_twice begins ends earlier later (fun _ answered => answered)
    (fun _ answered => answered) same
  exact ⟨current, Stored.object.inj equal⟩

theorem secret_pinned {first second : List (Exchange Calls)} (begins : c.Sees first moment)
    (ends : moment.Sees second c') {p : Secret} (earlier : (⟨.getSecret name, .ok o⟩ : Exchange Calls) ∈ first)
    (later : (⟨.getSecret name, .ok p⟩ : Exchange Calls) ∈ second) (same : version (.secret p) = version (.secret o)) :
    moment.current (.secret name) = some (.secret o) ∧ p = o := by
  obtain ⟨current, equal⟩ := Versions.read_twice begins ends earlier later (fun _ answered => answered)
    (fun _ answered => answered) same
  exact ⟨current, Stored.secret.inj equal⟩

/-- Every item of one list has a partner in the other. -/
theorem exists_partner {α β : Type} {related : α → β → Prop} {items : List α} {others : List β}
    (pairs : List.Forall₂ related items others) : ∀ item ∈ items, ∃ other ∈ others, related item other := by
  induction pairs with
  | nil => simp
  | cons here _ ih =>
    refine List.forall_mem_cons.mpr ⟨⟨_, List.mem_cons_self, here⟩, fun item member => ?_⟩
    obtain ⟨other, listed, partner⟩ := ih item member
    exact ⟨other, List.mem_cons_of_mem _ listed, partner⟩

/-- The configuration objects that are read before a moment and looked at again after it. -/
theorem objects_pinned {gets rechecks first again second : List (Exchange Calls)} (begins : c.Sees first moment)
    (ends : moment.Sees second c') (read : gets ⊆ first) (confirmed : rechecks ⊆ first) (after : again ⊆ second)
    (fetched : List.Forall₂ (Fetched space) gets revisions)
    (rechecked : List.Forall₂ (Rechecked space) rechecks revisions)
    (checked : List.Forall₂ (Rechecked space) again revisions) :
    ∀ x, x ∈ gets ∨ x ∈ rechecks ∨ x ∈ again → Answers moment x := by
  have again (rev : Revision) (member : rev ∈ revisions) : ∃ v : Unstructured,
      (⟨.get rev.resource space rev.name, .ok v⟩ : Exchange Calls) ∈ again ∧
        version (.object v) = (rev.uid, rev.resourceVersion) := by
    obtain ⟨x, listed, v, rfl, same⟩ := exists_partner checked.flip rev member
    exact ⟨v, listed, same⟩
  have revised {rev : Revision} {u : Unstructured} (same : rev = u.revision rev.resource rev.name) :
      version (.object u) = (rev.uid, rev.resourceVersion) := by
    rw [same]
    rfl
  rintro x (member | member | member)
  · obtain ⟨rev, listed, u, rfl, same⟩ := exists_partner fetched x member
    obtain ⟨v, reread, confirms⟩ := again rev listed
    exact (object_pinned begins ends (read member) (after reread) (confirms.trans (revised same).symm)).1
  · obtain ⟨rev, listed, u, rfl, same⟩ := exists_partner rechecked x member
    obtain ⟨v, reread, confirms⟩ := again rev listed
    exact (object_pinned begins ends (confirmed member) (after reread) (confirms.trans same.symm)).1
  · obtain ⟨rev, listed, v, rfl, confirms⟩ := exists_partner checked x member
    obtain ⟨_, first, u, rfl, same⟩ := exists_partner fetched.flip rev listed
    obtain ⟨current, rfl⟩ := object_pinned begins ends (read first) (after member) (confirms.trans (revised same).symm)
    exact current

/-- The Secrets that are first read before a moment and rechecked after it. -/
theorem secrets_pinned {reads rereads first second : List (Exchange Calls)} {known : GoMap String Secret}
    {revisions : List SecretRevision} (begins : c.Sees first moment) (ends : moment.Sees second c')
    (before : reads ⊆ first) (after : rereads ⊆ second) (gathers : Gathers ∅ reads known)
    (visits : order.Perm known.keys)
    (reread : (recheckSecrets sha256 known order).run.Returns rereads (.ok revisions)) :
    (∀ name o, known.lookup name = some o → moment.current (.secret name) = some (.secret o)) ∧
      ∀ x ∈ rereads, Answers moment x := by
  obtain ⟨again, rereads', _⟩ := recheckSecrets_ok reread
  constructor
  · intro name o found
    have listed : name ∈ order := visits.mem_iff.mpr
      (AList.mem_keys.mp (GoMap.mem_iff.mpr ⟨o, found⟩))
    obtain ⟨current, there, same⟩ := rereads' name listed o found
    exact (secret_pinned begins ends (before (gathers.source found)) (after there) same).1
  · intro x member
    obtain ⟨name, old, current, found, rfl, same⟩ := again x member
    obtain ⟨pinned, rfl⟩ := secret_pinned begins ends (before (gathers.source found)) (after member) same
    exact pinned

/-- There is a moment of the call at which every read of it would have been answered in
    the same way: the one after the last Secret was first read. -/
theorem load_answered (run : (load checks sha256 space name).run.Returns trace (.ok l)) (sees : c.Sees trace c') :
    ∃ first second moment, trace = first ++ second ∧ c.Sees first moment ∧ moment.Sees second c' ∧
      ∀ x ∈ trace, Answers moment x := by
  obtain ⟨gets, rechecks, secrets, again, rfl, collected, rechecked, _, resolved, checked⟩ := load_ok run
  have ranges := Ranges.of_sees sees
  obtain ⟨reads, known, order, rereads, revisions, rfl, gathers, _, _, reread, _, _⟩ :=
    resolveSecrets_ok resolved ranges.of_append.1.of_append.2
  have whole : gets ++ rechecks ++ (reads ++ ⟨.rangeOrder known.keys, order⟩ :: rereads) ++ again =
      (gets ++ rechecks ++ reads) ++ (⟨.rangeOrder known.keys, order⟩ :: rereads ++ again) := by simp
  rw [whole] at sees ranges ⊢
  -- what is read on both sides of the moment, at one version, stood there in between
  obtain ⟨moment, begins, ends⟩ := sees.split
  have visits : order.Perm known.keys := ranges _ _ (by simp)
  obtain ⟨secret, rereads'⟩ := secrets_pinned begins ends (List.subset_append_right _ _) (by simp) gathers visits reread
  have objects := objects_pinned begins ends (by simp) (by simp) (by simp) (collect_ok (moment.find space) collected).1
    (recheck_ok rechecked) (recheck_ok checked)
  refine ⟨_, _, moment, rfl, begins, ends, fun x member => ?_⟩
  simp only [List.mem_append, List.mem_cons] at member
  obtain ((got | rechecked) | read) | ((rfl | reread) | again) := member
  · exact objects x (.inl got)
  · exact objects x (.inr (.inl rechecked))
  · obtain ⟨keys, order, rfl⟩ | ⟨name, o, rfl, found⟩ := gathers.reads x read
    · exact ranges _ _ (by simp [read])
    · exact secret name o found
  · exact visits
  · exact rereads' x reread
  · exact objects x (.inr (.inr again))

/-- What a load returns is there where its reads are answered. -/
theorem cut_of_answered (run : (load checks sha256 space name).run.Returns trace (.ok l))
    (answered : ∀ x ∈ trace, Answers moment x) : Cut sha256 space name l moment := by
  obtain ⟨gets, rechecks, secrets, again, rfl, collected, _, _, resolved, _⟩ := load_ok run
  have object {resource name : String} {u : Unstructured}
      (member : (⟨.get resource space name, .ok u⟩ : Exchange Calls) ∈ gets) :
      moment.find space resource name = some u :=
    find_iff.mpr (answered ⟨.get resource space name, .ok u⟩ (by simp [member]))
  have secret {name : String} {o : Secret} (member : (⟨.getSecret name, .ok o⟩ : Exchange Calls) ∈ secrets) :
      moment.secret name = some o :=
    secret_iff.mpr (answered ⟨.getSecret name, .ok o⟩ (by simp [member]))
  have ranges : Ranges secrets := fun keys order member => answered ⟨.rangeOrder keys, order⟩ (by simp [member])
  obtain ⟨reads, known, order, rereads, revisions, rfl, gathers, gitHub, credentials, reread, sorted, _⟩ :=
    resolveSecrets_ok resolved ranges
  obtain ⟨fetched, stands⟩ := collect_ok (moment.find space) collected
  have holds {ref : SecretKeyReference} {value : List UInt8} (refers : Refers known ref value) : moment.Holds ref value := by
    obtain ⟨o, found, data⟩ := refers
    exact ⟨o, secret (List.mem_append_left _ (gathers.source found)), data⟩
  refine ⟨stands fun resource name u => object, fun rev listed => ?_, ?_, fun provider refs found => ?_,
    fun rev member => ?_⟩
  · obtain ⟨x, member, u, rfl, same⟩ := exists_partner fetched.flip rev listed
    exact ⟨u, object member, same⟩
  · obtain ⟨value, refers, token⟩ := gitHub
    exact ⟨value, holds refers, token⟩
  · obtain ⟨values, there, all⟩ := credentials provider refs found
    refine ⟨values, there, fun name ref found => ?_⟩
    obtain ⟨value, refers, there⟩ := all name ref found
    exact ⟨value, holds refers, there⟩
  · rw [sorted, List.mem_insertionSort] at member
    obtain ⟨current, there, same⟩ := (recheckSecrets_ok reread).2.2.1 rev member
    exact ⟨current, secret (List.mem_append_right _ (List.mem_cons_of_mem _ there)), same⟩

/-- Load returns what was there at one moment of the call: every read of the call would
    have been answered in the same way at that moment. -/
theorem load_consistent_cut {c c' : Cluster} (run : (load checks sha256 space name).run.Returns trace (.ok l))
    (sees : c.Sees trace c') :
    ∃ first second moment, trace = first ++ second ∧ c.Sees first moment ∧ moment.Sees second c' ∧
      (∀ x ∈ trace, Answers moment x) ∧ Cut sha256 space name l moment := by
  obtain ⟨first, second, moment, parts, begins, ends, answered⟩ := load_answered run sees
  exact ⟨first, second, moment, parts, begins, ends, answered, cut_of_answered run answered⟩

end Cut

/-! ## A small cluster -/

def orNotFound {α : Type} : Option α → Except GoError α
  | some value => .ok value
  | none => .error notFound

/-- The answers of a cluster that answers every read. -/
def Cluster.answer (c : Cluster) : (call : Call) → Answer call
  | .get resource space name => orNotFound (c.find space resource name)
  | .getSecret name => orNotFound (c.secret name)
  | call => quiet call

theorem Cluster.answers (c : Cluster) (call : Call) : Answers c ⟨call, c.answer call⟩ := by
  cases call with
  | get resource space name =>
    show Answers c ⟨.get resource space name, orNotFound (c.find space resource name)⟩
    cases found : c.find space resource name with
    | none => trivial
    | some u => exact find_iff.mp found
  | getSecret name =>
    show Answers c ⟨.getSecret name, orNotFound (c.secret name)⟩
    cases found : c.secret name with
    | none => trivial
    | some o => exact secret_iff.mp found
  | rangeOrder keys => exact .refl _
  | _ => trivial

theorem Cluster.sees_respond {α : Type} (c : Cluster) (program : Program Calls α) :
    c.Sees (program.respond c.answer).1 c := by
  induction program with
  | done value => exact .rest c
  | call request next ih => exact .exchange ⟨c.answers request, rfl⟩ (ih (c.answer request))

def Configuration.stored {σ : Type} (c : Configuration σ) (kind : String) (spec : σ → Spec) : Stored :=
  .object { apiVersion := apiVersion, kind, metadata := { c.metadata with uid := "1b4e28ba", resourceVersion := "7" }
            spec := spec c.spec, status := c.status }

/-- The objects of the small scale set, and its Secret. -/
def smallCluster : Cluster where
  current
    | .object "runnerscalesets" "ci" "linux" => some (smallSnapshot.scaleSet.stored "RunnerScaleSet" .runnerScaleSet)
    | .object "runnerclasses" "ci" "standard" => some (smallSnapshot.runnerClass.stored "RunnerClass" .runnerClass)
    | .object "capacitycatalogs" "ci" "prices" => some (smallSnapshot.catalog.stored "CapacityCatalog" .capacityCatalog)
    | .object "providerconfigs" "ci" "aws" =>
      (smallSnapshot.providers.lookup "aws").map fun p => p.stored "ProviderConfig" .providerConfig
    | .secret "github" => some (.secret
        { metadata := { name := "github", space := "ci", uid := "6fa459ea", resourceVersion := "9" }
          data := (∅ : GoMap String (List UInt8)).insert "token" [0x67, 0x68, 0x70] })
    | _ => none
  used := fun _ _ => True
  recorded := fun _ _ _ => trivial

/-- The small cluster before its Secret is rotated. -/
def staleCluster : Cluster where
  current slot :=
    if slot = .secret "github" then
      some (.secret { metadata := { name := "github", space := "ci", uid := "6fa459ea", resourceVersion := "8" }, data := ∅ })
    else smallCluster.current slot
  used := fun slot v => slot = .secret "github" → v ≠ ("6fa459ea", "9")
  recorded := by
    rintro slot object found rfl
    cases found
    decide

theorem staleCluster_rotated : Versions.Written staleCluster smallCluster where
  keeps := fun _ _ _ => trivial
  fresh := fun slot object found => by
    by_cases secret : slot = .secret "github"
    · subst secret
      cases found
      exact .inr fun unused => unused rfl rfl
    · exact .inl ((if_neg secret).trans found)

def rotating (rotated : Bool) : Cluster := if rotated then smallCluster else staleCluster

/-- The Secret is rotated just before it is read for the first time. -/
def rotatingAnswer (call : Call) (rotated : Bool) : Answer call × Bool :=
  let rotated := rotated || match call with
    | .getSecret _ => true
    | _ => false
  ((rotating rotated).answer call, rotated)

theorem rotating_sees {α : Type} (program : Program Calls α) (rotated : Bool) :
    ∃ d, (rotating rotated).Sees (program.converse (S := Calls) rotatingAnswer rotated).1 d := by
  induction program generalizing rotated with
  | done value => exact ⟨_, .rest _⟩
  | call request next ih =>
    obtain ⟨d, later⟩ := ih (rotatingAnswer request rotated).1 (rotatingAnswer request rotated).2
    have written : Versions.Written (rotating rotated) (rotating (rotatingAnswer request rotated).2) := by
      have stays (c : Cluster) : Versions.Written c c := ⟨fun _ _ => id, fun _ _ => .inl⟩
      cases rotated with
      | true => exact stays _
      | false => cases request <;> first | exact stays _ | exact staleCluster_rotated
    exact ⟨d, .move written (.exchange ⟨(rotating (rotatingAnswer request rotated).2).answers request, rfl⟩ later)⟩

def shownSecret : Exchange Calls → Option String
  | ⟨.getSecret _, .ok o⟩ => some o.metadata.resourceVersion
  | _ => none

/-- The Secret is rotated during the call, after the objects were read for the first time. -/
theorem load_consistent_cut_rotated :
    ∃ l trace d first second moment, (load plainChecks (fun _ => "digest") "ci" "linux").run.Returns trace (.ok l) ∧
      staleCluster.Sees trace d ∧ trace.filterMap shownSecret = ["9", "9"] ∧ trace = first ++ second ∧
      staleCluster.Sees first moment ∧ moment.Sees second d ∧ (∀ x ∈ trace, Answers moment x) ∧
      Cut (fun _ => "digest") "ci" "linux" l moment := by
  let result := (load plainChecks (fun _ => "digest") "ci" "linux").run.converse (S := Calls) rotatingAnswer false
  have run : (load plainChecks (fun _ => "digest") "ci" "linux").run.Returns result.1 result.2.1 :=
    Program.returns_converse _ _ _
  obtain ⟨d, sees⟩ := rotating_sees (load plainChecks (fun _ => "digest") "ci" "linux").run false
  have shown : result.1.filterMap shownSecret = ["9", "9"] := by decide +kernel
  have loads : result.2.1.isOk = true := by decide +kernel
  cases loaded : result.2.1 with
  | error e =>
    rw [loaded] at loads
    cases loads
  | ok l =>
    rw [loaded] at run
    obtain ⟨first, second, moment, cut⟩ := load_consistent_cut run sees
    exact ⟨l, result.1, d, first, second, moment, run, sees, shown, cut⟩

end RunnerScout.Configapi
