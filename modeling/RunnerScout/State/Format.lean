import RunnerScout.State.References

/-! # The two formats of a record

A record without cloud dependencies is stored under `allocation`, one with
dependencies under `allocation-v2`, and nothing else is accepted.  Over any store,
also one with ConfigMaps that were never written here, a save that succeeds is read
back as it was answered, and no run of saves takes a record back to the older format.
-/

namespace RunnerScout.State

open Interaction Program Lifecycle Operator

variable {cm : ConfigMap} {a : Allocation} {id : String} {revision : Revision} {write : Write}

/-! ## What is accepted -/

/-- The value of one key is the record, and the other key is missing. -/
def InFormat (cm : ConfigMap) (key other : String) (a : Allocation) : Prop :=
  cm.data.lookup key = some (.allocation a) ∧ cm.data.lookup other = none

/-- The format of a record that is accepted. -/
def Formatted (cm : ConfigMap) (a : Allocation) : Prop :=
  (a.resources ≠ [] ∧ InFormat cm "allocation-v2" "allocation" a) ∨
    (a.resources = [] ∧ InFormat cm "allocation" "allocation-v2" a)

theorem decodeAllocation_accepts (decoded : decodeAllocation cm = .ok a) :
    a.id = cm.name ∧ Formatted cm a := by
  have value {versioned : Bool} {document : Document} (accepted : decodeValue cm versioned document = .ok a) :
      document = .allocation a ∧ a.id = cm.name ∧ versioned = decide (a.resources.length > 0) := by
    unfold decodeValue at accepted
    split at accepted
    · split at accepted
      · cases accepted
      rename_i named
      split at accepted
      · cases accepted
      rename_i format
      split at accepted
      · cases accepted
      cases accepted
      exact ⟨rfl, not_not.mp named, not_not.mp format⟩
    · cases accepted
  unfold decodeAllocation at decoded
  split at decoded
  · rename_i legacy found absent
    obtain ⟨rfl, named, format⟩ := value decoded
    have plain : ¬ a.resources.length > 0 := of_decide_eq_false format.symm
    exact ⟨named, .inr ⟨by simpa using plain, found, absent⟩⟩
  · rename_i current absent found
    obtain ⟨rfl, named, format⟩ := value decoded
    have dependent : a.resources.length > 0 := of_decide_eq_true format.symm
    exact ⟨named, .inl ⟨List.length_pos_iff.mp dependent, found, absent⟩⟩
  · cases decoded

/-- Both keys, neither key, or a key that disagrees with the dependencies. -/
def Malformed (cm : ConfigMap) : Prop :=
  (cm.data.lookup "allocation").isSome = (cm.data.lookup "allocation-v2").isSome ∨
    (∃ a, cm.data.lookup "allocation" = some (.allocation a) ∧ a.resources ≠ []) ∨
    ∃ a, cm.data.lookup "allocation-v2" = some (.allocation a) ∧ a.resources = []

theorem decodeAllocation_rejects (malformed : Malformed cm) : ∃ e, decodeAllocation cm = .error e := by
  cases decoded : decodeAllocation cm with
  | error e => exact ⟨e, rfl⟩
  | ok a =>
    obtain ⟨_, ⟨dependent, found, absent⟩ | ⟨plain, found, absent⟩⟩ := decodeAllocation_accepts decoded <;>
      obtain same | ⟨b, other, disagrees⟩ | ⟨b, other, disagrees⟩ := malformed <;>
      simp_all

/-- A record in the newer format. -/
def Versioned (maps : Maps) (id : String) : Prop :=
  ∃ cm, maps.lookup id = some cm ∧ cm.data.lookup "allocation-v2" ≠ none ∧ cm.data.lookup "allocation" = none

/-- The decoded record says in which format it is stored. -/
theorem versioned_iff {maps : Maps} (found : maps.lookup id = some cm) (decoded : decodeAllocation cm = .ok a) :
    Versioned maps id ↔ a.resources ≠ [] := by
  obtain ⟨_, ⟨dependent, stored, absent⟩ | ⟨plain, stored, absent⟩⟩ := decodeAllocation_accepts decoded
  · exact iff_of_true ⟨cm, found, by simp [stored], absent⟩ dependent
  · refine iff_of_false ?_ (not_not.mpr plain)
    rintro ⟨other, same, current, _⟩
    rw [found] at same
    cases same
    exact current absent

theorem encode_formatted (s : Kubernetes) (a : Allocation) (revision : Revision) :
    (s.encode a revision).data.keys.length = 1 ∧ Formatted (s.encode a revision) a := by
  unfold Kubernetes.encode Formatted InFormat
  by_cases dependent : a.resources.length > 0
  · simp only [if_pos dependent]
    refine ⟨rfl, .inl ⟨List.length_pos_iff.mp dependent, AList.lookup_insert _, ?_⟩⟩
    rw [AList.lookup_insert_ne (by decide)]
    rfl
  · simp only [if_neg dependent]
    refine ⟨rfl, .inr ⟨by simpa using dependent, AList.lookup_insert _, ?_⟩⟩
    rw [AList.lookup_insert_ne (by decide)]
    rfl

/-! ## Reading back -/

/-- What the API server guarantees of any store: objects are found under their names,
    at versions it has assigned. -/
structure Served {γ : Type} (w : World γ) : Prop where
  named : ∀ key cm, w.maps.lookup key = some cm → cm.name = key
  past : ∀ key cm, w.maps.lookup key = some cm → cm.resourceVersion ≤ w.version

/-- `Load` and `List` return the record.  A map that `List` cannot decode makes it fail
    as a whole, but it never returns a list without the record or with another of that
    name. -/
structure ReadsBack (s : Kubernetes) (maps : Maps) (a : Allocation) : Prop where
  load : ∃ cm, maps.lookup a.id = some cm ∧ (s.load a.id).Returns [⟨.getMap a.id, .ok cm⟩] (.ok a)
  list : ∀ items, items.Perm (selected maps s.owner "allocation") →
    ((∀ other ∈ items, other.name ≠ a.id → ∃ b, decodeAllocation other = .ok b) →
      ∃ out, s.list.Returns [⟨.listMaps s.owner "allocation", .ok items⟩] (.ok out)) ∧
    ∀ out, s.list.Returns [⟨.listMaps s.owner "allocation", .ok items⟩] (.ok out) →
      a ∈ out ∧ ∀ x ∈ out, x.id = a.id → x = a

theorem decodeAll_decodes : ∀ {items : List ConfigMap}, (∀ cm ∈ items, ∃ b, decodeAllocation cm = .ok b) →
    ∃ out, Kubernetes.decodeAll items = .ok out
  | [], _ => ⟨[], rfl⟩
  | cm :: rest, decodes => by
    obtain ⟨b, decoded⟩ := decodes cm List.mem_cons_self
    obtain ⟨out, others⟩ := decodeAll_decodes fun x member => decodes x (List.mem_cons_of_mem _ member)
    have named := (decodeAllocation_accepts decoded).1
    rw [Kubernetes.decodeAll, decoded]
    simp [named, others]

theorem encode_labels (s : Kubernetes) (a : Allocation) (revision : Revision) :
    (s.encode a revision).labels.lookup ownerLabel = some s.owner ∧
      (s.encode a revision).labels.lookup kindLabel = some "allocation" :=
  ⟨(AList.lookup_insert_ne (by decide)).trans (AList.lookup_insert _), AList.lookup_insert _⟩

/-- A stored map that decodes to a record is what both read. -/
theorem readsBack_encode {s : Kubernetes} {maps : Maps} {x : Allocation}
    (named : ∀ key cm, maps.lookup key = some cm → cm.name = key) (stored : StoredRecord x)
    (found : maps.lookup x.id = some (s.encode x revision)) : ReadsBack s maps { x with revision := revision } := by
  have decoded : decodeAllocation (s.encode x revision) = .ok x := decodeAllocation_encode stored
  obtain ⟨owner, kind⟩ := encode_labels s x revision
  constructor
  · refine ⟨_, found, returns_call.mpr ⟨_, _, rfl, ?_⟩⟩
    have owned : s.owns (s.encode x revision) = true := by simp [Kubernetes.owns, owner]
    show Program.Returns (if _ then _ else _) _ _
    simp only [owned, decoded, Bool.not_true, Bool.false_eq_true, if_false, ne_eq, not_true_eq_false]
    exact .start _
  intro items selects
  have returns (out : List Allocation) :
      s.list.Returns [⟨.listMaps s.owner "allocation", .ok items⟩] (.ok out) ↔
        Kubernetes.decodeAll items = .ok out := by
    constructor
    · intro run
      obtain ⟨reply, later, exchanges, rest⟩ := returns_call.mp run
      cases exchanges
      exact (returns_pure.mp rest).2.symm
    · exact fun decodes => returns_call.mpr ⟨_, _, rfl, returns_pure.mpr ⟨rfl, decodes.symm⟩⟩
  have listed : s.encode x revision ∈ items :=
    selects.mem_iff.mpr (mem_selected.mpr ⟨⟨_, found⟩, owner, kind⟩)
  -- the map of that name is the record's
  have unique (cm : ConfigMap) (member : cm ∈ items) (same : cm.name = x.id) : cm = s.encode x revision := by
    obtain ⟨⟨key, known⟩, _⟩ := mem_selected.mp (selects.mem_iff.mp member)
    rw [← named key cm known, same, found] at known
    exact (Option.some.inj known).symm
  refine ⟨fun others => ?_, fun out run => ?_⟩
  · have all (cm : ConfigMap) (member : cm ∈ items) : ∃ b, decodeAllocation cm = .ok b := by
      by_cases same : cm.name = x.id
      · rw [unique cm member same]
        exact ⟨x, decoded⟩
      · exact others cm member same
    obtain ⟨out, decodes⟩ := decodeAll_decodes all
    exact ⟨out, (returns out).mpr decodes⟩
  · obtain ⟨sound, complete, _⟩ := decodeAll_spec ((returns out).mp run)
    have reads {y : Allocation} (decodes : Decodes (s.encode x revision) y) : y = { x with revision := revision } := by
      obtain ⟨b, same, _, rfl⟩ := decodes
      rw [decoded] at same
      cases same
      rfl
    constructor
    · obtain ⟨y, member, decodes⟩ := complete _ listed
      rwa [← reads decodes]
    · intro y member same
      obtain ⟨cm, inside, decodes⟩ := sound y member
      have name : cm.name = x.id := by
        obtain ⟨b, _, named, rfl⟩ := decodes
        exact named.symm.trans same
      exact reads (unique cm inside name ▸ decodes)

/-! ## Saves over any store -/

/-- The record a save stores: the allocation, its references in canonical order. -/
structure Canonical (a x : Allocation) : Prop where
  same : x = { a with resources := x.resources, revision := 0 }
  merged : ∃ changed, mergeResources [] a.resources = .ok (x.resources, changed)

theorem Canonical.stored {x : Allocation} (canonical : Canonical a x) : StoredRecord x := by
  obtain ⟨changed, merged⟩ := canonical.merged
  exact ⟨by rw [canonical.same], _, changed, merged⟩

/-- Merging once more what `Save` has merged changes nothing. -/
theorem Canonical.of_incoming {previous x : Allocation} {incoming : List ResourceReference}
    (accepted : incomingResources previous a = .ok incoming)
    (canonical : Canonical { a with resources := incoming } x) : Canonical a x := by
  obtain ⟨changed, merged⟩ : ∃ changed, mergeResources [] a.resources = .ok (incoming, changed) := by
    unfold incomingResources at accepted
    split at accepted
    · cases accepted
    rename_i merges
    repeat' split at accepted
    all_goals cases accepted
    exact ⟨_, merges⟩
  obtain ⟨_, again⟩ := canonical.merged
  have same : x.resources = incoming :=
    eq_of_precedes (mergeResources_ordered again) (mergeResources_ordered merged) fun r =>
      by simpa using (mergeResources_merged again).mem r
  exact ⟨canonical.same, changed, same ▸ merged⟩

/-- Any number of saves, of any allocations under any owners, each of them a thread. -/
structure Savers where
  stores : Nat → Kubernetes
  calls : Nat → Allocation × Revision

namespace Savers

variable (s : Savers)

def rules : Rules (List Write) where
  name := ""
  clock := fun _ _ => True
  removable := fun _ _ => True
  wrote := fun thread before after history => ⟨thread, before, after⟩ :: history
  outside := fun _ history _ _ after => after = history

def starts (thread : Nat) (program : Program Api (Except GoError Allocation)) : Prop :=
  program = (s.stores thread).save (s.calls thread).1 (s.calls thread).2

/-- Whatever else goes on in the cluster leaves the names that are saved alone. -/
structure Elsewhere (w after : World (List Write)) : Prop where
  served : Served after
  evolves : Evolves w after
  maps : ∀ thread, after.maps.lookup (s.calls thread).1.id = w.maps.lookup (s.calls thread).1.id
  history : after.history = w.history

def Initial (w : World (List Write)) : Prop := Served w ∧ w.history = []

abbrev Run (system : System Api (World (List Write)) (Except GoError Allocation)) : Prop :=
  System.Reachable rules.semantics s.Elsewhere s.starts System.concurrent Initial system

/-! ### What one write does -/

/-- The map of the record stands in the store at a new version, and a record in the
    newer format was not replaced by one without dependencies. -/
structure Puts (write : Write) (x : Allocation) (version : Revision) : Prop where
  canonical : Canonical (s.calls write.thread).1 x
  named : ∀ key cm, write.before.lookup key = some cm → cm.name = key
  newer : ∀ key cm, write.before.lookup key = some cm → cm.resourceVersion < version
  after : write.after = write.before.insert x.id ((s.stores write.thread).encode x version)
  forward : Versioned write.before x.id → x.resources ≠ []

structure Kept (w : World (List Write)) : Prop where
  served : Served w
  puts : ∀ write ∈ w.history, ∃ x version, s.Puts write x version
  lasting : ∀ write ∈ w.history, ∀ thread, Versioned write.after (s.calls thread).1.id →
    Versioned w.maps (s.calls thread).1.id

def rely : Rely (World (List Write)) where
  invariant := s.Kept
  rely := fun _ w after => Evolves w after ∧ w.history ⊆ after.history
  refl := Saves.grown_refl
  trans := Saves.grown_trans

variable {s} {thread : Nat} {w : World (List Write)} {x : Allocation} {version : Revision}

theorem elsewhere_kept {after : World (List Write)} (kept : s.Kept w) (elsewhere : s.Elsewhere w after) :
    s.Kept after ∧ ∀ thread, s.rely.rely thread w after := by
  refine ⟨⟨elsewhere.served, ?_, ?_⟩, fun _ => ⟨elsewhere.evolves, by rw [elsewhere.history]; exact List.Subset.refl _⟩⟩
  · rw [elsewhere.history]
    exact kept.puts
  · rw [elsewhere.history]
    intro write member other versioned
    obtain ⟨cm, found, format⟩ := kept.lasting write member other versioned
    exact ⟨cm, (elsewhere.maps other).trans found, format⟩

theorem Puts.found (puts : s.Puts write x version) :
    write.after.lookup x.id = some ((s.stores write.thread).encode x version) := by
  rw [puts.after, AList.lookup_insert]

theorem Puts.frame (puts : s.Puts write x version) (other : id ≠ x.id) :
    write.after.lookup id = write.before.lookup id := by
  rw [puts.after, AList.lookup_insert_ne other]

theorem Puts.namedAfter (puts : s.Puts write x version) (key : String) (cm : ConfigMap)
    (found : write.after.lookup key = some cm) : cm.name = key := by
  by_cases same : key = x.id
  · subst same
    rw [puts.found] at found
    cases found
    rfl
  · exact puts.named key cm (puts.frame same ▸ found)

/-- A write takes no record back to the older format. -/
theorem Puts.versioned (puts : s.Puts write x version) (before : Versioned write.before id) :
    Versioned write.after id := by
  by_cases same : id = x.id
  · subst same
    exact (versioned_iff puts.found (decodeAllocation_encode puts.canonical.stored)).mpr (puts.forward before)
  · obtain ⟨cm, found, format⟩ := before
    exact ⟨cm, (puts.frame same).trans found, format⟩

/-- The world after such a write. -/
def put (thread : Nat) (w : World (List Write)) (x : Allocation) (version : Revision) : World (List Write) :=
  rules.write thread w (w.maps.insert x.id ((s.stores thread).encode x version)) version

/-- What a save that returned knows: its map was put in place, and still is while its
    version stands. -/
def Answered (s : Savers) (thread : Nat) : Except GoError Allocation → World (List Write) → Prop
  | .ok saved, w => ∃ x, saved = { x with revision := saved.revision } ∧
      Seen ((s.stores thread).encode x saved.revision) w ∧
      ∃ write ∈ w.history, write.thread = thread ∧ s.Puts write x saved.revision
  | .error _, _ => True

theorem answered_stable (reply : Except GoError Allocation) : s.rely.Stable thread (s.Answered thread reply) := by
  intro before after _ relied holds
  cases reply with
  | error e => trivial
  | ok saved =>
    obtain ⟨x, same, seen, write, member, written⟩ := holds
    exact ⟨x, same, seen.evolves relied.1, write, relied.2 member, written⟩

/-- A canonical record is put in place of one it does not take back. -/
theorem put_kept (kept : s.Kept w) (canonical : Canonical (s.calls thread).1 x) (newer : w.version < version)
    (forward : Versioned w.maps x.id → x.resources ≠ []) :
    Keeps s.rely thread w (put (s := s) thread w x version) ∧
      s.Answered thread (.ok { x with revision := version }) (put (s := s) thread w x version) := by
  have puts : s.Puts ⟨thread, w.maps, w.maps.insert x.id ((s.stores thread).encode x version)⟩ x version :=
    ⟨canonical, kept.served.named, fun key cm found => Nat.lt_of_le_of_lt (kept.served.past key cm found) newer, rfl,
      forward⟩
  have served : Served (put (s := s) thread w x version) := by
    refine ⟨puts.namedAfter, fun key cm found => ?_⟩
    by_cases same : key = x.id
    · subst same
      cases puts.found.symm.trans found
      exact Nat.le_refl _
    · exact Nat.le_of_lt (puts.newer key cm ((puts.frame same).symm.trans found))
  refine ⟨⟨⟨served, ?_, ?_⟩, fun _ _ => ⟨evolves_write newer rfl, List.subset_cons_self _ _⟩⟩,
    x, rfl, ⟨Nat.le_refl _, fun current found _ => ?_⟩, _, List.mem_cons_self, rfl, puts⟩
  · intro write member
    obtain rfl | earlier := List.mem_cons.mp member
    · exact ⟨x, version, puts⟩
    · exact kept.puts write earlier
  · intro write member other versioned
    obtain rfl | earlier := List.mem_cons.mp member
    · exact versioned
    · exact puts.versioned (kept.lasting write earlier other versioned)
  · exact Option.some.inj (found.symm.trans puts.found)

theorem puts_kept {out : ConfigMap} {after : World (List Write)} (kept : s.Kept w)
    (canonical : Canonical (s.calls thread).1 x)
    (puts : rules.Puts thread w ((s.stores thread).encode x revision) out after)
    (forward : Versioned w.maps x.id → x.resources ≠ []) :
    Keeps s.rely thread w after ∧ s.Answered thread (.ok { x with revision := out.resourceVersion }) after := by
  obtain ⟨newer, same, rfl⟩ := puts
  generalize out.resourceVersion = version at *
  subst same
  exact put_kept kept canonical newer forward

/-! ### The whole save -/

/-- What `Save` has read before it replaces a record. -/
def Ready (a : Allocation) (revision : Revision) (w : World (List Write)) : Prop :=
  revision ≠ 0 → ∃ current previous, Seen current w ∧ current.name = a.id ∧ current.resourceVersion = revision ∧
    decodeAllocation current = .ok previous ∧ previous.resources ⊆ a.resources

theorem ready_stable (a : Allocation) (revision : Revision) : s.rely.Stable thread (Ready a revision) := by
  intro before after _ relied ready given
  obtain ⟨current, previous, seen, found⟩ := ready given
  exact ⟨current, previous, seen.evolves relied.1, found⟩

/-- The record that is replaced is the one that was read, so it is not taken back. -/
theorem Ready.forward (ready : Ready a revision w) (included : a.resources ⊆ x.resources) (named : x.id = a.id)
    (given : revision ≠ 0) {found : ConfigMap} (current : w.maps.lookup x.id = some found)
    (same : found.resourceVersion = revision) (before : Versioned w.maps x.id) : x.resources ≠ [] := by
  obtain ⟨read, previous, seen, name, version, decoded, kept⟩ := ready given
  have equal : found = read := seen.2 found (by rw [name, ← named, current]) (same.trans version.symm)
  have dependent := (versioned_iff current (equal ▸ decoded)).mp before
  intro empty
  have : previous.resources ⊆ [] := empty ▸ List.Subset.trans kept included
  exact dependent (List.subset_nil.mp this)

theorem write_steps (canonical : ∀ x : Allocation, Canonical a x → Canonical (s.calls thread).1 x) :
    s.rely.Triple rules.semantics thread (Ready a revision) ((s.stores thread).write a revision)
      (s.Answered thread) := by
  unfold Kubernetes.write
  split
  · exact .done fun _ _ => trivial
  rename_i resources changed merges
  dsimp only
  generalize known : ({ a with resources := resources, revision := 0 } : Allocation) = x
  have merged : Canonical a x := by subst known; exact ⟨rfl, changed, merges⟩
  have included : a.resources ⊆ x.resources := by
    subst known
    exact fun r member => ((mergeResources_merged merges).mem r).mpr (List.mem_append_right _ member)
  have named : x.id = a.id := by subst known; rfl
  let posted (reply : Except GoError ConfigMap) (w : World (List Write)) : Prop :=
    ∀ out, reply = .ok out → s.Answered thread (.ok { x with revision := out.resourceVersion }) w
  have unchanged {w : World (List Write)} (kept : s.Kept w) : Keeps s.rely thread w w :=
    ⟨kept, fun _ _ => s.rely.refl _ _⟩
  have failed {e : GoError} {w : World (List Write)} : posted (.error e) w := fun _ same => by cases same
  have answered {out : ConfigMap} {w : World (List Write)}
      (known : s.Answered thread (.ok { x with revision := out.resourceVersion }) w) : posted (.ok out) w :=
    fun _ same => by cases same; exact known
  split
  · have create : s.rely.Triple rules.semantics thread (Ready a revision)
        (ask (S := Api) (.createMap ((s.stores thread).encode x revision))) posted := by
      refine .request (ready_stable a revision) fun w reply after kept ready executed => ?_
      have applied {out : ConfigMap} (creates : rules.Creates thread w ((s.stores thread).encode x revision) out after) :=
        puts_kept kept (canonical x merged) creates.2 fun ⟨_, found, _⟩ => by cases creates.1.symm.trans found
      cases reply with
      | ok out => exact ⟨(applied executed).1.1, (applied executed).1.2, answered (applied executed).2⟩
      | error e =>
        obtain ⟨rfl | ⟨out, creates⟩, _⟩ := executed
        · exact ⟨kept, (unchanged kept).2, failed⟩
        · exact ⟨(applied creates).1.1, (applied creates).1.2, failed⟩
    refine .bind create fun reply => ?_
    cases reply with
    | ok out => exact .done fun w reached => by subst known; exact reached out rfl
    | error e => dsimp only; split <;> exact .done fun _ _ => trivial
  · rename_i given
    have update : s.rely.Triple rules.semantics thread (Ready a revision)
        (ask (S := Api) (.updateMap ((s.stores thread).encode x revision))) posted := by
      refine .request (ready_stable a revision) fun w reply after kept ready executed => ?_
      have applied {out : ConfigMap} (updates : rules.Updates thread w ((s.stores thread).encode x revision) out after) :=
        puts_kept kept (canonical x merged) updates.2 fun before => by
          obtain ⟨current, found, same⟩ := updates.1
          exact ready.forward included named given found (same given) before
      cases reply with
      | ok out => exact ⟨(applied executed).1.1, (applied executed).1.2, answered (applied executed).2⟩
      | error e =>
        obtain rfl | ⟨out, updates⟩ := executed
        · exact ⟨kept, (unchanged kept).2, failed⟩
        · exact ⟨(applied updates).1.1, (applied updates).1.2, failed⟩
    refine .bind update fun reply => ?_
    cases reply with
    | ok out => exact .done fun w reached => by subst known; exact reached out rfl
    | error e => dsimp only; split <;> exact .done fun _ _ => trivial

theorem save_steps (thread : Nat) :
    s.rely.Triple rules.semantics thread s.Kept ((s.stores thread).save (s.calls thread).1 (s.calls thread).2)
      (s.Answered thread) := by
  unfold Kubernetes.save
  split
  · rename_i fresh
    rw [fresh]
    exact (write_steps fun x same => same).pre_mono fun _ _ given => absurd rfl given
  have read : s.rely.Triple rules.semantics thread s.Kept (ask (S := Api) (.getMap (s.calls thread).1.id))
      fun reply w => ∀ cm, reply = .ok cm → Seen cm w ∧ cm.name = (s.calls thread).1.id := by
    refine .request (fun _ _ kept _ _ => kept) fun w reply after kept _ executed => ?_
    obtain rfl := getMap_reads w reply after executed
    refine ⟨kept, fun _ _ => s.rely.refl _ _, fun cm same => ?_⟩
    subst same
    obtain ⟨_, found⟩ := executed
    have name := kept.served.named _ _ found
    refine ⟨⟨kept.served.past _ _ found, fun current again _ => ?_⟩, name⟩
    rw [name, found] at again
    exact (Option.some.inj again).symm
  refine .bind read fun reply => ?_
  cases reply with
  | error e => exact .done fun _ _ => trivial
  | ok current =>
    dsimp only
    split
    · exact .done fun _ _ => trivial
    split
    · exact .done fun _ _ => trivial
    rename_i version
    split
    · exact .done fun _ _ => trivial
    rename_i previous decoded
    split
    · exact .done fun _ _ => trivial
    rename_i incoming accepted
    refine (write_steps fun x again => again.of_incoming accepted).pre_mono fun w known _ => ?_
    obtain ⟨seen, name⟩ := known current rfl
    exact ⟨current, previous, seen, name, not_not.mp version, decoded, (incomingResources_keeps accepted).2⟩

theorem run_safe {system : System Api (World (List Write)) (Except GoError Allocation)} (run : s.Run system) :
    s.rely.SystemSafe rules.semantics s.Answered system := by
  refine s.rely.reachable_safe ?_ (fun _ _ => elsewhere_kept) ?_ run
  · intro w ⟨served, unwritten⟩
    exact ⟨served, by simp [unwritten], by simp [unwritten]⟩
  · intro thread w program kept started
    subst started
    exact (save_steps thread).safe answered_stable kept

/-- A save that succeeds is read back, with its references in canonical order and the
    new revision; every map that is written holds one key, the newer one exactly for a
    record with dependencies; `decodeAllocation` rejects every other shape; and a record
    in the newer format stays in it. -/
theorem saved_records_read_back {s : Savers} {system : System Api (World (List Write)) (Except GoError Allocation)}
    (run : s.Run system) :
    (∀ thread saved, system.threads thread = some (.done (.ok saved)) →
      saved = { (s.calls thread).1 with resources := saved.resources, revision := saved.revision } ∧
      saved.resources.Pairwise ResourceReference.precedes ∧
      (∀ r, r ∈ saved.resources ↔ r ∈ (s.calls thread).1.resources) ∧
      (∃ write ∈ system.world.history, write.thread = thread ∧
        (∀ key cm, write.before.lookup key = some cm → cm.resourceVersion < saved.revision) ∧
        ReadsBack (s.stores thread) write.after saved) ∧
      ((system.world.maps.lookup saved.id).map ConfigMap.resourceVersion = some saved.revision →
        ReadsBack (s.stores thread) system.world.maps saved)) ∧
    (∀ write ∈ system.world.history, ∃ cm a, write.after = write.before.insert cm.name cm ∧
      cm.data.keys.length = 1 ∧ Formatted cm a) ∧
    (∀ cm, Malformed cm → ∃ e, decodeAllocation cm = .error e) ∧
    ∀ write ∈ system.world.history, ∀ thread,
      Versioned write.before (s.calls thread).1.id ∨ Versioned write.after (s.calls thread).1.id →
        Versioned write.after (s.calls thread).1.id ∧ Versioned system.world.maps (s.calls thread).1.id := by
  have safe := run_safe run
  have kept := safe.invariant
  refine ⟨fun thread saved ended => ?_, fun write member => ?_, fun cm => decodeAllocation_rejects, ?_⟩
  · obtain ⟨x, same, seen, write, member, rfl, puts⟩ := safe.result ended
    obtain ⟨changed, merges⟩ := puts.canonical.merged
    have resources : saved.resources = x.resources := by rw [same]
    have name : saved.id = x.id := by rw [same]
    have back {maps : Maps} (named : ∀ key cm, maps.lookup key = some cm → cm.name = key)
        (found : maps.lookup x.id = some ((s.stores write.thread).encode x saved.revision)) :
        ReadsBack (s.stores write.thread) maps saved := by
      rw [same]
      exact readsBack_encode named puts.canonical.stored found
    refine ⟨?_, ?_, fun r => ?_, ⟨write, member, rfl, puts.newer, back puts.namedAfter puts.found⟩, fun current => ?_⟩
    · rw [same, puts.canonical.same]
    · exact resources ▸ mergeResources_ordered merges
    · rw [resources, (mergeResources_merged merges).mem r, List.nil_append]
    · rw [name] at current
      obtain ⟨cm, found, version⟩ := Option.map_eq_some_iff.mp current
      have unchanged := seen.2 cm found version
      exact back kept.served.named (unchanged ▸ found)
  · obtain ⟨x, version, puts⟩ := kept.puts write member
    obtain ⟨one, formatted⟩ := encode_formatted (s.stores write.thread) x version
    exact ⟨_, x, puts.after, one, formatted⟩
  · intro write member thread versioned
    obtain ⟨x, version, puts⟩ := kept.puts write member
    have after := versioned.elim puts.versioned id
    exact ⟨after, kept.lasting write member thread after⟩

/-! A record with a disk, saved once more without it and with an interface besides. -/

def dependent : Savers where
  stores := fun _ => ⟨"pool"⟩
  calls := fun thread => ({ smallRecord with resources := Saves.carried thread }, if thread = 0 then 0 else 1)

theorem outside_kept (thread : Nat) (w : World (List Write)) (request : ApiRequest) :
    rules.outside thread w.history request (silence request) w.history := rfl

def replies (thread : Nat) : Script rules thread where
  now := fun _ => 0
  shown := fun _ => trivial
  removes := fun _ _ => false
  removable := fun _ _ _ => trivial
  reply := fun request _ => silence request
  next := fun _ w => w.history
  outside := outside_kept thread

/-- The world in which the first two saves have ended. -/
def forgotten : World (List Write) :=
  System.playAll (fun thread => (replies thread).answer)
    ([0, 1].map fun thread =>
      (thread, 9, (dependent.stores thread).save (dependent.calls thread).1 (dependent.calls thread).2))
    { history := [] }

def dependentRun : System Api (World (List Write)) (Except GoError Allocation) :=
  let played := System.playFor (replies 2).answer 9
    ((dependent.stores 2).save (dependent.calls 2).1 (dependent.calls 2).2) forgotten
  ⟨played.2, Function.update (fun _ => none) 2 (some played.1)⟩

theorem dependentRun_run : dependent.Run dependentRun := by
  have earlier : dependent.Run ⟨forgotten, fun _ => none⟩ := by
    refine System.Reachable.playAll (fun thread => (replies thread).honest) _ (fun turn member => ?_)
      (.initial _ ⟨⟨fun key cm found => ?_, fun key cm found => ?_⟩, rfl⟩)
    · obtain ⟨_, _, rfl⟩ := List.mem_map.mp member
      rfl
    · simp at found
    · simp at found
  exact (earlier.step (.start 2 _ rfl (fun _ running => absurd rfl running) rfl)).playFor (replies 2).honest 9

theorem saved_records_read_back_dependentRun :
    ∃ saved, dependentRun.threads 2 = some (.done (.ok saved)) ∧
      saved.resources.Pairwise ResourceReference.precedes ∧ ReadsBack ⟨"pool"⟩ dependentRun.world.maps saved := by
  obtain ⟨_, ordered, _, _, back⟩ := (saved_records_read_back dependentRun_run).1 2 _ rfl
  exact ⟨_, rfl, ordered, back rfl⟩

end Savers

end RunnerScout.State
