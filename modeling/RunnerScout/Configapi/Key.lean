import RunnerScout.Configapi.Cut

/-! # What the key of a configuration tells apart

`Loaded.Key` covers the Secrets by their names, UIDs and content hashes.  The hash ends
keys and values with a zero byte, and a value may hold zero bytes itself; two Secrets
whose values hold none have the same hash only where they have the same data.
-/

namespace RunnerScout.Configapi

open Interaction Json

/-! ## The Secrets of a key -/

instance : Std.Total byName := ⟨fun a b => Std.Total.total a.name b.name⟩

instance : IsTrans SecretRevision byName := ⟨fun _ _ _ => String.le_trans⟩

section Revisions

variable {checks : Checks} {sha256 : List UInt8 → String} {space name : String} {trace : List (Exchange Calls)}
  {l : Loaded}

theorem SecretRevision.identity_inj {a b : SecretRevision} :
    a.identity = b.identity ↔ a.name = b.name ∧ a.uid = b.uid ∧ a.contentHash = b.contentHash := by
  unfold SecretRevision.identity
  rw [record_inj (by rfl) (by simp)]
  simp

/-- A load has the revision of every Secret its configuration refers to, sorted by their
    names. -/
theorem load_secrets (run : (load checks sha256 space name).run.Returns trace (.ok l)) (ranges : Ranges trace) :
    (l.credentials.revisions.map SecretRevision.name).Pairwise (· ≤ ·) ∧
      (l.credentials.revisions.map SecretRevision.name).Nodup ∧
      ∀ name, name ∈ l.credentials.revisions.map SecretRevision.name ↔ Referenced l.resolved name := by
  obtain ⟨gets, rechecks, secrets, again, rfl, _, _, _, resolved, _⟩ := load_ok run
  obtain ⟨reads, known, order, rereads, revisions, rfl, gathers, gitHub, credentials, reread, sorted, referenced⟩ :=
    resolveSecrets_ok resolved ranges.of_append.1.of_append.2
  have visits : order.Perm known.keys := ranges _ _ (by simp)
  obtain ⟨_, _, _, names⟩ := recheckSecrets_ok reread
  have permuted : (l.credentials.revisions.map SecretRevision.name).Perm known.keys := by
    rw [sorted]
    refine ((List.perm_insertionSort byName revisions).map _).trans ?_
    rw [names, List.filter_eq_self.mpr fun name listed =>
      AList.lookup_isSome.mpr (AList.mem_keys.mpr (visits.mem_iff.mp listed))]
    exact visits
  refine ⟨?_, permuted.nodup_iff.mpr known.keys_nodup, fun name => ?_⟩
  · rw [sorted, List.pairwise_map]
    exact List.pairwise_insertionSort byName revisions
  · rw [permuted.mem_iff, ← AList.mem_keys]
    constructor
    · exact referenced name
    · rintro (rfl | ⟨provider, refs, found, key, ref, there, rfl⟩)
      · obtain ⟨value, ⟨o, there, _⟩, _⟩ := gitHub
        exact GoMap.mem_iff.mpr ⟨o, there⟩
      · obtain ⟨values, _, all⟩ := credentials provider refs found
        obtain ⟨value, ⟨o, there, _⟩, _⟩ := all key ref there
        exact GoMap.mem_iff.mpr ⟨o, there⟩

/-- Two lists with the same keys agree in what their keys determine. -/
theorem map_eq_of_keys {α β γ : Type} {key : α → β} {value : α → γ} : ∀ {items others : List α},
    items.map key = others.map key → (∀ a ∈ items, ∀ b ∈ others, key a = key b → value a = value b) →
      items.map value = others.map value
  | [], [], _, _ => rfl
  | a :: items, b :: others, keys, agree => by
    obtain ⟨head, tail⟩ := List.cons.inj keys
    rw [List.map_cons, List.map_cons, agree a List.mem_cons_self b List.mem_cons_self head]
    rw [map_eq_of_keys tail fun a member b member' => agree a (List.mem_cons_of_mem _ member) b (List.mem_cons_of_mem _ member')]

end Revisions

section Key

variable {checks : Checks} {sha256 : List UInt8 → String} {space name : String} {trace trace' : List (Exchange Calls)}
  {l l' : Loaded} {moment moment' : Cluster} (catalogDocument : Placement.Catalog → Json) {δ : Type} {digest : Json → δ}

/-- Equal keys are those of the same Secrets. -/
theorem secrets_of_key (injective : Function.Injective digest)
    (same : l.key catalogDocument digest = l'.key catalogDocument digest) :
    l.credentials.revisions.map SecretRevision.identity = l'.credentials.revisions.map SecretRevision.identity := by
  have members := (record_inj (by rfl) (by simp [Loaded.members])).mp (injective same)
  simp only [Loaded.members, List.cons.injEq, Prod.mk.injEq, Option.some.injEq, Json.array.injEq, true_and, and_true] at members
  exact members.2.2.2.2.2.2

/-- A Secret whose data differs in its hash changes the key. -/
theorem key_ne_of_hash (injective : Function.Injective digest) (cut : Cut sha256 space name l moment)
    (cut' : Cut sha256 space name l' moment') {secretName : String} {o o' : Secret}
    (listed : secretName ∈ l.credentials.revisions.map SecretRevision.name)
    (here : moment.secret secretName = some o) (there : moment'.secret secretName = some o')
    (differ : secretDataHash sha256 o.data ≠ secretDataHash sha256 o'.data) :
    l.key catalogDocument digest ≠ l'.key catalogDocument digest := by
  intro same
  obtain ⟨rev, member, rfl⟩ := List.mem_map.mp listed
  have identity := List.mem_map_of_mem (f := SecretRevision.identity) member
  rw [secrets_of_key catalogDocument injective same] at identity
  obtain ⟨rev', member', equal⟩ := List.mem_map.mp identity
  obtain ⟨names, _, hashes⟩ := SecretRevision.identity_inj.mp equal
  obtain ⟨p, found, revised⟩ := cut.secrets rev member
  obtain ⟨p', found', revised'⟩ := cut'.secrets rev' member'
  rw [here] at found
  rw [names, there] at found'
  cases found
  cases found'
  rw [revised, revised'] at hashes
  exact differ hashes.symm

/-- The key does not see what else a Secret has. -/
theorem key_eq_of_data (run : (load checks sha256 space name).run.Returns trace (.ok l))
    (run' : (load checks sha256 space name).run.Returns trace' (.ok l')) (ranges : Ranges trace) (ranges' : Ranges trace')
    (cut : Cut sha256 space name l moment) (cut' : Cut sha256 space name l' moment')
    (resolved : l'.resolved = l.resolved)
    (network : (l'.snapshot.network.map fun n => n.spec) = l.snapshot.network.map fun n => n.spec)
    (identities : l'.revisions.map Revision.identity = l.revisions.map Revision.identity)
    (secrets : ∀ name o o', Referenced l.resolved name → moment.secret name = some o → moment'.secret name = some o' →
      o'.metadata.uid = o.metadata.uid ∧ Regrouped o'.data o.data) :
    l'.key catalogDocument digest = l.key catalogDocument digest := by
  obtain ⟨sorted, nodup, referenced⟩ := load_secrets run ranges
  obtain ⟨sorted', nodup', referenced'⟩ := load_secrets run' ranges'
  have names : l'.credentials.revisions.map SecretRevision.name = l.credentials.revisions.map SecretRevision.name := by
    refine List.Perm.eq_of_pairwise (fun a b _ _ => String.le_antisymm) sorted' sorted ?_
    refine (List.perm_ext_iff_of_nodup nodup' nodup).mpr fun name => ?_
    rw [referenced, referenced', resolved]
  have revisions : l'.credentials.revisions.map SecretRevision.identity =
      l.credentials.revisions.map SecretRevision.identity := by
    refine map_eq_of_keys names fun rev' member' rev member same => ?_
    obtain ⟨o, here, revised⟩ := cut.secrets rev member
    obtain ⟨o', there, revised'⟩ := cut'.secrets rev' member'
    rw [same] at there
    obtain ⟨uid, data⟩ := secrets rev.name o o' ((referenced _).mp (List.mem_map_of_mem member)) here there
    refine SecretRevision.identity_inj.mpr ⟨same, ?_, ?_⟩
    · rw [revised, revised']
      exact uid
    · rw [revised, revised']
      exact congrArg sha256 (secretDocument_regrouped data)
  have document : (l'.snapshot.network.elim Json.null fun n => record n.spec.members) =
      l.snapshot.network.elim Json.null fun n => record n.spec.members := by
    have mapped := congrArg (Option.elim · Json.null fun spec => record spec.members) network
    simpa only [Option.elim_map, Function.comp_def] using mapped
  unfold Loaded.key Loaded.members
  rw [resolved, document, identities, revisions]

/-- What the keys of two loads say about the Secrets they found. -/
structure Separated (digest : Json → δ) (l l' : Loaded) (moment moment' : Cluster) : Prop where
  changed : ∀ name o o', Referenced l.resolved name → moment.secret name = some o → moment'.secret name = some o' →
    KeyTexts o.data → KeyTexts o'.data → ¬Regrouped o.data o'.data →
      l'.key catalogDocument digest ≠ l.key catalogDocument digest
  unchanged : l'.resolved = l.resolved →
    (l'.snapshot.network.map fun n => n.spec) = (l.snapshot.network.map fun n => n.spec) →
    l'.revisions.map Revision.identity = l.revisions.map Revision.identity →
    (∀ name o o', Referenced l.resolved name → moment.secret name = some o → moment'.secret name = some o' →
      o'.metadata.uid = o.metadata.uid ∧ Regrouped o'.data o.data) →
      l'.key catalogDocument digest = l.key catalogDocument digest

/-- The content hash is the same for entries regrouped and for no others, which without
    zero bytes in the values is the same data only; and the key of a load changes with
    the entries of its Secrets so far as the hash does, and with nothing else of them. -/
theorem loadedKey_separates {c d c' d' : Cluster} (sha : Function.Injective sha256) (injective : Function.Injective digest)
    (run : (load checks sha256 space name).run.Returns trace (.ok l)) (sees : c.Sees trace d)
    (run' : (load checks sha256 space name).run.Returns trace' (.ok l')) (sees' : c'.Sees trace' d') :
    (∀ data other, KeyTexts data → KeyTexts other →
      (secretDataHash sha256 data = secretDataHash sha256 other ↔ Regrouped data other) ∧
      ((∀ key, data.lookup key = other.lookup key) → Regrouped data other) ∧
      (ZeroFree data → ZeroFree other → Regrouped data other → ∀ key, data.lookup key = other.lookup key)) ∧
    ∃ moment moment', (∀ x ∈ trace, Answers moment x) ∧ (∀ x ∈ trace', Answers moment' x) ∧
      Cut sha256 space name l moment ∧ Cut sha256 space name l' moment' ∧
      Separated catalogDocument digest l l' moment moment' := by
  obtain ⟨_, _, moment, _, _, _, answered⟩ := load_answered run sees
  obtain ⟨_, _, moment', _, _, _, answered'⟩ := load_answered run' sees'
  have cut := cut_of_answered run answered
  have cut' := cut_of_answered run' answered'
  have ranges := Ranges.of_sees sees
  refine ⟨fun data other texts texts' => ⟨?_, ?_, ?_⟩, moment, moment', answered, answered', cut, cut', ?_, ?_⟩
  · exact sha.eq_iff.trans (secretDocument_eq_iff texts texts')
  · exact fun same => (secretDocument_eq_iff texts texts').mp (secretDocument_congr same)
  · exact fun free free' regrouped => (secretDocument_inj texts texts' free free').mp (secretDocument_regrouped regrouped)
  · intro name o o' referenced here there texts texts' differ same
    -- every Secret that is referred to goes into the key with its hash
    have listed := ((load_secrets run ranges).2.2 name).mpr referenced
    refine key_ne_of_hash catalogDocument injective cut cut' listed here there (fun hashes => ?_) same.symm
    exact differ ((secretDocument_eq_iff texts texts').mp (sha hashes))
  · exact key_eq_of_data catalogDocument run run' ranges (Ranges.of_sees sees') cut cut'

end Key

/-! ## Zero bytes in a value -/

/-- The small cluster with another Secret. -/
def Cluster.withSecret (data : GoMap String (List UInt8)) (resourceVersion : String) : Cluster where
  current
    | .secret "github" =>
      some (.secret { metadata := { name := "github", space := "ci", uid := "6fa459ea", resourceVersion }, data })
    | slot => smallCluster.current slot
  used := fun _ _ => True
  recorded := fun _ _ _ => trivial

def tokenOnly : GoMap String (List UInt8) := (∅ : GoMap String (List UInt8)).insert "token" [0x67, 0x68, 0x70]

/-- A value that reads like a value and the next entry. -/
def zeroData : GoMap String (List UInt8) := tokenOnly.insert "a" [0x78, 0, 0x62, 0, 0x79]

def splitData : GoMap String (List UInt8) := (tokenOnly.insert "a" [0x78]).insert "b" [0x79]

section Quiet

variable (sha256 : List UInt8 → String) (data : GoMap String (List UInt8)) (resourceVersion : String)

/-- A load in a cluster that stays as it is. -/
def quietLoad : List (Exchange Calls) × Except GoError Loaded :=
  (load plainChecks sha256 "ci" "linux").run.respond (Cluster.withSecret data resourceVersion).answer

theorem quietLoad_returns {l : Loaded} (loads : (quietLoad sha256 data resourceVersion).2 = .ok l) :
    (load plainChecks sha256 "ci" "linux").run.Returns (quietLoad sha256 data resourceVersion).1 (.ok l) ∧
      (Cluster.withSecret data resourceVersion).Sees (quietLoad sha256 data resourceVersion).1
        (Cluster.withSecret data resourceVersion) := by
  rw [← loads]
  exact ⟨Program.returns_respond _ _, Cluster.sees_respond _ _⟩

end Quiet

/-- The data of a Secret changes from one load to the next, and neither its hash nor the
    key of the load does, whatever the hash function. -/
theorem zeroBytes_collide : KeyTexts zeroData ∧ KeyTexts splitData ∧ zeroData.lookup "b" ≠ splitData.lookup "b" ∧
    (∀ sha256, secretDataHash sha256 zeroData = secretDataHash sha256 splitData) ∧
    ∀ (sha256 : List UInt8 → String) (catalogDocument : Placement.Catalog → Json) (digest : Json → Json),
      ∃ trace trace' l l', (load plainChecks sha256 "ci" "linux").run.Returns trace (.ok l) ∧
        (Cluster.withSecret zeroData "9").Sees trace (Cluster.withSecret zeroData "9") ∧
        (load plainChecks sha256 "ci" "linux").run.Returns trace' (.ok l') ∧
        (Cluster.withSecret splitData "10").Sees trace' (Cluster.withSecret splitData "10") ∧
        l.key catalogDocument digest = l'.key catalogDocument digest := by
  refine ⟨by decide, by decide, by decide, fun sha256 => congrArg sha256 (by decide), fun sha256 catalogDocument digest => ?_⟩
  obtain ⟨l, loads⟩ : ∃ l, (quietLoad sha256 zeroData "9").2 = .ok l := ⟨_, rfl⟩
  obtain ⟨l', loads'⟩ : ∃ l, (quietLoad sha256 splitData "10").2 = .ok l := ⟨_, rfl⟩
  have same : (quietLoad sha256 zeroData "9").2.map (·.key catalogDocument digest) =
      (quietLoad sha256 splitData "10").2.map (·.key catalogDocument digest) := rfl
  rw [loads, loads'] at same
  obtain ⟨run, sees⟩ := quietLoad_returns sha256 zeroData "9" loads
  obtain ⟨run', sees'⟩ := quietLoad_returns sha256 splitData "10" loads'
  exact ⟨_, _, l, l', run, sees, run', sees', Except.ok.inj same⟩

/-- A hash that keeps every byte. -/
def byteText (bytes : List UInt8) : String := String.ofList (bytes.map fun byte => Char.ofNat byte.toNat)

theorem byteText_injective : Function.Injective byteText := by
  intro first second same
  have chars : Function.Injective fun byte : UInt8 => Char.ofNat byte.toNat := by
    intro a b same
    have back (byte : UInt8) : (Char.ofNat byte.toNat).toNat = byte.toNat :=
      (by decide +kernel : ∀ n < 256, (Char.ofNat n).toNat = n) byte.toNat byte.toNat_lt
    exact UInt8.toNat_inj.mp (by rw [← back a, ← back b]; exact congrArg Char.toNat same)
  exact List.map_injective_iff.mpr chars (String.ofList_injective same)

/-- The token of the small scale set is rotated. -/
theorem loadedKey_separates_token :
    ∃ trace trace' l l', (load plainChecks byteText "ci" "linux").run.Returns trace (.ok l) ∧
      (load plainChecks byteText "ci" "linux").run.Returns trace' (.ok l') ∧
      ∃ moment moment', Cut byteText "ci" "linux" l moment ∧ Cut byteText "ci" "linux" l' moment' ∧
        Separated (fun _ => Json.null) id l l' moment moment' := by
  obtain ⟨l, loads⟩ : ∃ l, (quietLoad byteText tokenOnly "9").2 = .ok l := ⟨_, rfl⟩
  obtain ⟨l', loads'⟩ : ∃ l, (quietLoad byteText (tokenOnly.insert "token" [0x67, 0x68, 0x71]) "10").2 = .ok l := ⟨_, rfl⟩
  obtain ⟨run, sees⟩ := quietLoad_returns byteText tokenOnly "9" loads
  obtain ⟨run', sees'⟩ := quietLoad_returns byteText (tokenOnly.insert "token" [0x67, 0x68, 0x71]) "10" loads'
  obtain ⟨_, moment, moment', _, _, cut, cut', separated⟩ :=
    loadedKey_separates (fun _ => Json.null) byteText_injective Function.injective_id run sees run' sees'
  exact ⟨_, _, l, l', run, run', moment, moment', cut, cut', separated⟩

end RunnerScout.Configapi
