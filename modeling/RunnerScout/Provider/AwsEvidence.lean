import RunnerScout.Interaction.Trace
import RunnerScout.Provider.Adapter
import RunnerScout.State.References

/-! # What an EC2 inventory rests on

The inventory is assembled from several listings and direct reads.  Each of its
entries goes back to an answer of the cloud in the same call that showed the resource
with its ownership marks, and each entry that is missing to an answer that the
resource does not exist.
-/

namespace RunnerScout.Provider

open Interaction Program Lifecycle

variable {token id : String} {next : Option String} {reference : ResourceReference}

/-! ## Answers of EC2 -/

def shownReservations : Exchange CloudCalls → List AwsReservation
  | ⟨.describeInstances _ _, .ok (some page)⟩ => page.items
  | _ => []

def shownInstances (x : Exchange CloudCalls) : List AwsInstance :=
  (shownReservations x).flatMap AwsReservation.instances

def shownVolumes : Exchange CloudCalls → List AwsVolume
  | ⟨.describeVolumes _ _, .ok (some page)⟩ => page.items
  | _ => []

def shownInterfaces : Exchange CloudCalls → List AwsInterface
  | ⟨.describeNetworkInterfaces _ _, .ok (some page)⟩ => page.items
  | _ => []

def instanceMissing (id : String) : Exchange CloudCalls → Bool
  | ⟨.describeInstances selector _, .error e⟩ => selector = .ids [id] && awsMissing e "InvalidInstanceID.NotFound"
  | _ => false

def volumeMissing (id : String) : Exchange CloudCalls → Bool
  | ⟨.describeVolumes selector _, .error e⟩ => selector = .ids [id] && awsMissing e "InvalidVolume.NotFound"
  | _ => false

def interfaceMissing (id : String) : Exchange CloudCalls → Bool
  | ⟨.describeNetworkInterfaces selector _, .error e⟩ =>
    selector = .ids [id] && awsMissing e "InvalidNetworkInterfaceID.NotFound"
  | _ => false

/-- The token a page of the owned volumes was asked with, and the one it names. -/
def volumeTokens (p : Command) (a : Allocation) : Exchange CloudCalls → Option (String × String)
  | ⟨.describeVolumes selector token, .ok (some page)⟩ =>
    if selector = .owned p.config.owner a.id then some (token, page.nextToken) else none
  | _ => none

def interfaceTokens (p : Command) (a : Allocation) : Exchange CloudCalls → Option (String × String)
  | ⟨.describeNetworkInterfaces selector token, .ok (some page)⟩ =>
    if selector = .owned p.config.owner a.id then some (token, page.nextToken) else none
  | _ => none

/-- Pages that follow each other up to the last one. -/
def ToTheEnd : String → List (String × String) → Prop
  | _, [] => False
  | token, (asked, next) :: rest => asked = token ∧ if next = "" then rest = [] else ToTheEnd next rest

/-! ## Listings -/

section Listing

variable {σ : Type} (page : σ → String → Program CloudCalls (Except GoError (σ × Option String)))

/-- A listing, page after page, up to one that names no other. -/
inductive Listing : σ → String → List (Exchange CloudCalls) → σ → Prop where
  | last {s s' : σ} {token : String} {next : Option String} {trace : List (Exchange CloudCalls)}
      (read : (page s token).Returns trace (.ok (s', next))) (ends : next.getD "" = "") : Listing s token trace s'
  | more {s s' final : σ} {token next : String} {trace later : List (Exchange CloudCalls)}
      (read : (page s token).Returns trace (.ok (s', some next))) (named : next ≠ "")
      (rest : Listing s' next later final) : Listing s token (trace ++ later) final

variable {page}

theorem awsNext_more {seen : List String} {result : Option (List String)} (next : awsNext token seen = .ok result) :
    result = none ↔ token = "" := by
  unfold awsNext at next
  split at next
  · cases next
    simpa
  split at next
  · cases next
  · cases next
    simpa

theorem awsPage_returns {more : List String → σ → String → Program CloudCalls (Except GoError σ)}
    (later : ∀ {seen s token trace final}, (more seen s token).Returns trace (.ok final) →
      Listing page s token trace final) {seen : List String} {s final : σ} {trace : List (Exchange CloudCalls)}
    (run : (awsPage page more seen s token).Returns trace (.ok final)) : Listing page s token trace final := by
  unfold awsPage at run
  rw [returns_bind] at run
  obtain ⟨first, rest, result, rfl, read, run⟩ := run
  match result, read, run with
  | .error e, _, run => simp at run
  | .ok (s', none), read, run =>
    obtain ⟨rfl, same⟩ := returns_pure.mp run
    cases same
    rw [List.append_nil]
    exact .last read rfl
  | .ok (s', some next), read, run =>
    dsimp only at run
    split at run
    · simp at run
    · rename_i isLast
      obtain ⟨rfl, same⟩ := returns_pure.mp run
      cases same
      rw [List.append_nil]
      exact .last read ((awsNext_more isLast).mp rfl)
    · rename_i isMore
      have named : next ≠ "" := fun empty => by simpa using (awsNext_more isMore).mpr empty
      exact .more read named (later run)

theorem awsPages_returns : ∀ {remaining : Nat} {seen : List String} {s final : σ} {token : String}
    {trace : List (Exchange CloudCalls)}, (awsPages page remaining seen s token).Returns trace (.ok final) →
      Listing page s token trace final
  | 0, _, _, _, _, _, run => awsPage_returns (fun impossible => by simp at impossible) run
  | _ + 1, _, _, _, _, _, run => awsPage_returns awsPages_returns run

/-- What every page keeps holds after a listing. -/
theorem Listing.keeps (keep : List (Exchange CloudCalls) → σ → Prop)
    (onePage : ∀ {s s' token next trace before}, (page s token).Returns trace (.ok (s', next)) → keep before s →
      keep (before ++ trace) s') {s final : σ} {trace : List (Exchange CloudCalls)}
    (listing : Listing page s token trace final) :
    ∀ {before : List (Exchange CloudCalls)}, keep before s → keep (before ++ trace) final := by
  induction listing with
  | last read ends => exact onePage read
  | more read named rest ih =>
    intro before holds
    rw [← List.append_assoc]
    exact ih (onePage read holds)

theorem Listing.silent {tokens : Exchange CloudCalls → Option (String × String)}
    (onePage : ∀ {s s' token next trace}, (page s token).Returns trace (.ok (s', next)) →
      trace.filterMap tokens = []) {s final : σ} {trace : List (Exchange CloudCalls)}
    (listing : Listing page s token trace final) :
    trace.filterMap tokens = [] := by
  induction listing with
  | last read ends => exact onePage read
  | more read named rest ih => rw [List.filterMap_append, onePage read, ih, List.append_nil]

/-- The pages of a listing follow each other up to the last one. -/
theorem Listing.toTheEnd {tokens : Exchange CloudCalls → Option (String × String)}
    (onePage : ∀ {s s' token next trace}, (page s token).Returns trace (.ok (s', next)) →
      trace.filterMap tokens = [(token, next.getD "")]) {s final : σ} {trace : List (Exchange CloudCalls)}
    (listing : Listing page s token trace final) :
    ToTheEnd token (trace.filterMap tokens) := by
  induction listing with
  | last read ends =>
    rw [onePage read, ends]
    exact ⟨rfl, by simp⟩
  | more read named rest ih =>
    rw [List.filterMap_append, onePage read]
    exact ⟨rfl, by simpa [named] using ih⟩

end Listing

/-! ## Entries that were shown -/

section Shown

variable {α : Type} (shown : Exchange CloudCalls → List α) (identity : α → String) (own : α → Prop)
  (missing : String → Exchange CloudCalls → Bool)

/-- A map filled from answers: its entries were shown and are the allocation's own, and
    whatever else was shown was then found missing. -/
structure Shown (trace : List (Exchange CloudCalls)) (entries : GoMap String α) : Prop where
  entry : ∀ id v, entries.lookup id = some v → v ∈ trace.flatMap shown ∧ identity v = id ∧ own v
  rest : ∀ v ∈ trace.flatMap shown, identity v ∈ entries ∨ ∃ x ∈ trace, missing (identity v) x

/-- One entry read by its own identity. -/
inductive Reread (x : Exchange CloudCalls) (id : String) (entries : GoMap String α) : GoMap String α → Prop where
  | gone (silent : shown x = []) (absent : missing id x) : Reread x id entries (entries.erase id)
  | found {v : α} (single : shown x = [v]) (same : identity v = id) (owned : own v) :
      Reread x id entries (entries.insert id v)

variable {shown identity own missing} {trace : List (Exchange CloudCalls)} {x : Exchange CloudCalls}
  {entries after : GoMap String α}

theorem Shown.empty : Shown shown identity own missing [] ∅ :=
  ⟨by simp, by simp⟩

/-- An answer that shows something, all of it taken up. -/
theorem Shown.read (known : Shown shown identity own missing trace entries)
    (added : ∀ id v, after.lookup id = some v → entries.lookup id = some v ∨ (v ∈ shown x ∧ identity v = id ∧ own v))
    (kept : ∀ id ∈ entries, id ∈ after) (taken : ∀ v ∈ shown x, identity v ∈ after) :
    Shown shown identity own missing (trace ++ [x]) after where
  entry := by
    intro id v found
    obtain earlier | ⟨now, same, owned⟩ := added id v found
    · obtain ⟨before, facts⟩ := known.entry id v earlier
      exact ⟨by simp only [List.flatMap_append, List.mem_append, before, true_or], facts⟩
    · exact ⟨by simp [now], same, owned⟩
  rest := by
    intro v member
    simp only [List.flatMap_append, List.mem_append, List.flatMap_singleton] at member
    obtain before | now := member
    · obtain held | ⟨y, asked, gone⟩ := known.rest v before
      · exact .inl (kept _ held)
      · exact .inr ⟨y, by simp [asked], gone⟩
    · exact .inl (taken v now)

/-- An answer that is about something else. -/
theorem Shown.ignore (known : Shown shown identity own missing trace entries) (silent : shown x = []) :
    Shown shown identity own missing (trace ++ [x]) entries :=
  known.read (fun _ _ => .inl) (fun _ => id) (by simp [silent])

/-- An answer that an entry does not exist. -/
theorem Shown.erase (known : Shown shown identity own missing trace entries) (silent : shown x = [])
    (gone : missing id x) : Shown shown identity own missing (trace ++ [x]) (entries.erase id) where
  entry := by
    intro other v found
    exact (known.ignore silent).entry other v (GoMap.lookup_erase_eq_some.mp found).2
  rest := by
    intro v member
    by_cases same : identity v = id
    · exact .inr ⟨x, by simp, same ▸ gone⟩
    · obtain held | elsewhere := (known.ignore silent).rest v member
      · exact .inl (AList.mem_erase.mpr ⟨same, held⟩)
      · exact .inr elsewhere

theorem Shown.reread (known : Shown shown identity own missing trace entries)
    (read : Reread shown identity own missing x id entries after) :
    Shown shown identity own missing (trace ++ [x]) after := by
  cases read with
  | gone silent absent => exact known.erase silent absent
  | @found v single same owned =>
    refine known.read (fun other u lookup => ?_) (fun other held => (AList.mem_insert _).mpr (.inr held)) ?_
    · by_cases key : other = id
      · rw [key, AList.lookup_insert] at lookup
        cases lookup
        exact .inr ⟨by simp [single], same.trans key.symm, owned⟩
      · rw [AList.lookup_insert_ne key] at lookup
        exact .inl lookup
    · intro u member
      rw [single, List.mem_singleton] at member
      rw [member, same]
      exact (AList.mem_insert _).mpr (.inl rfl)

theorem Reread.settled (read : Reread shown identity own missing x id entries after) :
    id ∈ after ∨ missing id x := by
  cases read with
  | gone silent absent => exact .inr absent
  | found single same owned => exact .inl ((AList.mem_insert _).mpr (.inl rfl))

theorem Reread.kept {other : String} (read : Reread shown identity own missing x id entries after)
    (held : other ∈ entries) : other ∈ after ∨ missing other x := by
  cases read with
  | gone silent absent =>
    by_cases same : other = id
    · exact .inr (same ▸ absent)
    · exact .inl (AList.mem_erase.mpr ⟨same, held⟩)
  | found single same owned => exact .inl ((AList.mem_insert _).mpr (.inr held))

end Shown

/-! ## The EC2 inventory -/

section Aws

variable (p : Command) (a : Allocation)

def VerifiedVolume (v : AwsVolume) : Prop := awsOwned v.tags p.config.owner a.id ∧ v.zone = a.offering.zone

/-- Everything shown of instances, and the one that was found. -/
structure ShownInstances (trace : List (Exchange CloudCalls)) (vm : Option AwsInstance) : Prop where
  vm : ∀ i, i ∈ trace.flatMap shownInstances ↔ vm = some i
  own : ∀ r ∈ trace.flatMap shownReservations,
    r.ownerID = p.config.accountID ∧ ∀ i ∈ r.instances, awsInstanceOwned p a i

/-- What an inventory so far rests on. -/
structure AwsShown (trace : List (Exchange CloudCalls)) (s : AwsInventory) : Prop where
  instances : ShownInstances p a trace s.vm
  volumes : Shown shownVolumes AwsVolume.volumeID (VerifiedVolume p a) volumeMissing trace s.volumes
  interfaces : Shown shownInterfaces AwsInterface.interfaceID (fun n => interfaceOwned p a n) interfaceMissing trace
    s.interfaces

variable {p a} {trace before : List (Exchange CloudCalls)} {x : Exchange CloudCalls} {s s' : AwsInventory}

theorem ShownInstances.ignore {vm : Option AwsInstance}
    (known : ShownInstances p a trace vm) (silent : shownReservations x = []) :
    ShownInstances p a (trace ++ [x]) vm where
  vm := by simpa [shownInstances, silent] using known.vm
  own := by simpa [silent] using known.own

theorem AwsShown.start : AwsShown p a [] {} :=
  ⟨⟨by simp, by simp⟩, Shown.empty, Shown.empty⟩

/-- An answer that shows nothing. -/
theorem AwsShown.ignore (known : AwsShown p a trace s) (instances : shownReservations x = [])
    (volumes : shownVolumes x = []) (interfaces : shownInterfaces x = []) : AwsShown p a (trace ++ [x]) s :=
  ⟨known.instances.ignore instances, known.volumes.ignore volumes, known.interfaces.ignore interfaces⟩

/-! ### Instances -/

theorem readInstances_ok : ∀ {items : List AwsInstance} {s : AwsInventory}, readInstances p a items s = .ok s' →
    (∀ i ∈ items, awsInstanceOwned p a i) ∧
      ((items = [] ∧ s' = s) ∨ ∃ i, items = [i] ∧ s.vm = none ∧ s' = { s with vm := some i })
  | [], s, read => by
    cases read
    exact ⟨by simp, .inl ⟨rfl, rfl⟩⟩
  | i :: rest, s, read => by
    simp only [readInstances] at read
    split at read
    · cases read
    rename_i accepted
    simp only [not_or, Bool.not_eq_true, Option.isSome_eq_false_iff, Option.isNone_iff_eq_none,
      Bool.not_eq_eq_eq_not, Bool.not_true, Bool.not_eq_false] at accepted
    obtain ⟨unset, own⟩ := accepted
    cases rest with
    | nil =>
      cases read
      exact ⟨by simpa using own, .inr ⟨i, rfl, unset, rfl⟩⟩
    | cons j rest => simp [readInstances] at read

theorem readReservations_ok : ∀ {reservations : List AwsReservation} {s : AwsInventory},
    readReservations p a reservations s = .ok s' →
      (∀ r ∈ reservations, r.ownerID = p.config.accountID ∧ ∀ i ∈ r.instances, awsInstanceOwned p a i) ∧
        ((reservations.flatMap AwsReservation.instances = [] ∧ s' = s) ∨
          ∃ i, reservations.flatMap AwsReservation.instances = [i] ∧ s.vm = none ∧ s' = { s with vm := some i })
  | [], s, read => by
    cases read
    exact ⟨by simp, .inl ⟨rfl, rfl⟩⟩
  | r :: rest, s, read => by
    simp only [readReservations] at read
    split at read
    · cases read
    rename_i account
    split at read
    · cases read
    rename_i middle readFirst
    obtain ⟨own, first⟩ := readInstances_ok readFirst
    obtain ⟨ownRest, others⟩ := readReservations_ok read
    refine ⟨List.forall_mem_cons.mpr ⟨⟨by simpa using account, own⟩, ownRest⟩, ?_⟩
    obtain ⟨empty, rfl⟩ | ⟨i, single, unset, rfl⟩ := first
    · simpa [empty] using others
    · obtain ⟨empty, rfl⟩ | ⟨j, _, set, _⟩ := others
      · exact .inr ⟨i, by simp [single, empty], unset, rfl⟩
      · cases set

/-- The answer a page of instances was read from. -/
theorem instancePage_returns (run : (instancePage p a s token).Returns trace (.ok (s', next))) :
    ∃ reply, trace = [⟨.describeInstances (instanceSelector a) token, reply⟩] ∧
      ((∃ e, reply = .error e ∧ a.resourceID ≠ "" ∧ awsMissing e "InvalidInstanceID.NotFound" ∧ s' = s) ∨
        ∃ page, reply = .ok (some page) ∧ (a.resourceID ≠ "" → page.items ≠ []) ∧
          readReservations p a page.items s = .ok s') := by
  unfold instancePage at run
  rw [returns_ask] at run
  obtain ⟨reply, later, rfl, run⟩ := run
  refine ⟨reply, ?_⟩
  match reply, run with
  | .error e, run =>
    dsimp only at run
    split at run
    · rename_i missing
      obtain ⟨rfl, same⟩ := returns_pure.mp run
      cases same
      exact ⟨rfl, .inl ⟨e, rfl, missing.1, missing.2, rfl⟩⟩
    · simp at run
  | .ok none, run => simp at run
  | .ok (some page), run =>
    dsimp only at run
    split at run
    · simp at run
    split at run
    · simp at run
    rename_i named
    split at run
    · simp at run
    · rename_i middle read
      obtain ⟨rfl, same⟩ := returns_pure.mp run
      cases same
      exact ⟨rfl, .inr ⟨page, rfl, fun recorded empty => named ⟨recorded, by simp [empty]⟩, read⟩⟩

theorem instancePage_shown (run : (instancePage p a s token).Returns trace (.ok (s', next)))
    (known : AwsShown p a before s) :
    AwsShown p a (before ++ trace) s' := by
  obtain ⟨reply, rfl, ⟨e, rfl, _, _, rfl⟩ | ⟨page, rfl, _, read⟩⟩ := instancePage_returns run
  · exact known.ignore rfl rfl rfl
  obtain ⟨own, ⟨empty, rfl⟩ | ⟨i, single, unset, rfl⟩⟩ := readReservations_ok read
  · refine ⟨⟨?_, ?_⟩, known.volumes.ignore rfl, known.interfaces.ignore rfl⟩
    · simpa [shownInstances, shownReservations, empty] using known.instances.vm
    · intro r member
      simp only [List.flatMap_append, List.mem_append, List.flatMap_singleton] at member
      exact member.elim (known.instances.own r) (own r)
  · refine ⟨⟨?_, ?_⟩, known.volumes.ignore rfl, known.interfaces.ignore rfl⟩
    · intro j
      have none := known.instances.vm j
      simp only [unset, reduceCtorEq, iff_false] at none
      simp only [List.flatMap_append, List.mem_append, List.flatMap_singleton, none, shownInstances,
        shownReservations, single, List.mem_singleton, false_or]
      constructor
      · rintro rfl
        rfl
      · intro same
        exact (Option.some.inj same).symm
    · intro r member
      simp only [List.flatMap_append, List.mem_append, List.flatMap_singleton] at member
      exact member.elim (known.instances.own r) (own r)

/-! ### Volumes and interfaces -/

theorem readVolumes_ok : ∀ {items : List AwsVolume} {s : AwsInventory}, readVolumes p a items s = .ok s' →
    s'.vm = s.vm ∧ s'.interfaces = s.interfaces ∧
      (∀ id v, s'.volumes.lookup id = some v →
        s.volumes.lookup id = some v ∨ (v ∈ items ∧ v.volumeID = id ∧ VerifiedVolume p a v)) ∧
      (∀ id ∈ s.volumes, id ∈ s'.volumes) ∧ ∀ v ∈ items, v.volumeID ∈ s'.volumes
  | [], s, read => by
    cases read
    exact ⟨rfl, rfl, fun _ _ => .inl, fun _ => id, by simp⟩
  | v :: rest, s, read => by
    simp only [readVolumes] at read
    split at read
    · cases read
    rename_i accepted
    obtain ⟨vm, interfaces, added, kept, taken⟩ := readVolumes_ok read
    have own : VerifiedVolume p a v := by
      simp only [not_or, Bool.not_eq_true, Bool.not_eq_eq_eq_not, Bool.not_true, Bool.not_eq_false,
        Decidable.not_not] at accepted
      exact ⟨accepted.2.2.1, accepted.2.2.2⟩
    refine ⟨vm, interfaces, ?_, fun id held => kept id (AList.mem_insert _ |>.mpr (.inr held)), ?_⟩
    · intro id u found
      obtain earlier | ⟨member, facts⟩ := added id u found
      · by_cases same : id = v.volumeID
        · rw [same, AList.lookup_insert] at earlier
          cases earlier
          exact .inr ⟨List.mem_cons_self, same.symm, own⟩
        · rw [AList.lookup_insert_ne same] at earlier
          exact .inl earlier
      · exact .inr ⟨List.mem_cons_of_mem _ member, facts⟩
    · exact List.forall_mem_cons.mpr ⟨kept _ (AList.mem_insert _ |>.mpr (.inl rfl)), taken⟩

theorem readInterfaces_ok : ∀ {items : List AwsInterface} {s : AwsInventory}, readInterfaces p a items s = .ok s' →
    s'.vm = s.vm ∧ s'.volumes = s.volumes ∧
      (∀ id n, s'.interfaces.lookup id = some n →
        s.interfaces.lookup id = some n ∨ (n ∈ items ∧ n.interfaceID = id ∧ interfaceOwned p a n)) ∧
      (∀ id ∈ s.interfaces, id ∈ s'.interfaces) ∧ ∀ n ∈ items, n.interfaceID ∈ s'.interfaces
  | [], s, read => by
    cases read
    exact ⟨rfl, rfl, fun _ _ => .inl, fun _ => id, by simp⟩
  | n :: rest, s, read => by
    simp only [readInterfaces] at read
    split at read
    · cases read
    rename_i accepted
    obtain ⟨vm, volumes, added, kept, taken⟩ := readInterfaces_ok read
    have own : interfaceOwned p a n := by
      simp only [not_or, Bool.not_eq_true, Bool.not_eq_eq_eq_not, Bool.not_true, Bool.not_eq_false] at accepted
      exact accepted.2.2
    refine ⟨vm, volumes, ?_, fun id held => kept id (AList.mem_insert _ |>.mpr (.inr held)), ?_⟩
    · intro id m found
      obtain earlier | ⟨member, facts⟩ := added id m found
      · by_cases same : id = n.interfaceID
        · rw [same, AList.lookup_insert] at earlier
          cases earlier
          exact .inr ⟨List.mem_cons_self, same.symm, own⟩
        · rw [AList.lookup_insert_ne same] at earlier
          exact .inl earlier
      · exact .inr ⟨List.mem_cons_of_mem _ member, facts⟩
    · exact List.forall_mem_cons.mpr ⟨kept _ (AList.mem_insert _ |>.mpr (.inl rfl)), taken⟩

/-- The answer a page of volumes was read from. -/
theorem volumePage_returns (run : (volumePage p a s token).Returns trace (.ok (s', next))) :
    ∃ page, trace = [⟨.describeVolumes (.owned p.config.owner a.id) token, .ok (some page)⟩] ∧
      next = some page.nextToken ∧ readVolumes p a page.items s = .ok s' := by
  unfold volumePage at run
  rw [returns_ask] at run
  obtain ⟨reply, later, rfl, run⟩ := run
  match reply, run with
  | .error e, run => simp at run
  | .ok none, run => simp at run
  | .ok (some page), run =>
    dsimp only at run
    split at run
    · simp at run
    split at run
    · simp at run
    · rename_i middle read
      obtain ⟨rfl, same⟩ := returns_pure.mp run
      cases same
      exact ⟨page, rfl, rfl, read⟩

/-- The answer a page of interfaces was read from. -/
theorem interfacePage_returns (run : (interfacePage p a s token).Returns trace (.ok (s', next))) :
    ∃ page, trace = [⟨.describeNetworkInterfaces (.owned p.config.owner a.id) token, .ok (some page)⟩] ∧
      next = some page.nextToken ∧ readInterfaces p a page.items s = .ok s' := by
  unfold interfacePage at run
  rw [returns_ask] at run
  obtain ⟨reply, later, rfl, run⟩ := run
  match reply, run with
  | .error e, run => simp at run
  | .ok none, run => simp at run
  | .ok (some page), run =>
    dsimp only at run
    split at run
    · simp at run
    split at run
    · simp at run
    · rename_i middle read
      obtain ⟨rfl, same⟩ := returns_pure.mp run
      cases same
      exact ⟨page, rfl, rfl, read⟩

theorem volumePage_shown (run : (volumePage p a s token).Returns trace (.ok (s', next)))
    (known : AwsShown p a before s) :
    AwsShown p a (before ++ trace) s' := by
  obtain ⟨page, rfl, _, read⟩ := volumePage_returns run
  obtain ⟨vm, interfaces, added, kept, taken⟩ := readVolumes_ok read
  refine ⟨?_, known.volumes.read added kept taken, ?_⟩
  · rw [vm]
    exact known.instances.ignore rfl
  · rw [interfaces]
    exact known.interfaces.ignore rfl

theorem interfacePage_shown (run : (interfacePage p a s token).Returns trace (.ok (s', next)))
    (known : AwsShown p a before s) :
    AwsShown p a (before ++ trace) s' := by
  obtain ⟨page, rfl, _, read⟩ := interfacePage_returns run
  obtain ⟨vm, volumes, added, kept, taken⟩ := readInterfaces_ok read
  refine ⟨?_, ?_, known.interfaces.read added kept taken⟩
  · rw [vm]
    exact known.instances.ignore rfl
  · rw [volumes]
    exact known.volumes.ignore rfl

/-! ### Recorded dependencies -/

/-- One dependency read by its own identity. -/
inductive DependencyRead (p : Command) (a : Allocation) (x : Exchange CloudCalls) (reference : ResourceReference)
    (s : AwsInventory) : AwsInventory → Prop where
  | volume {volumes : GoMap String AwsVolume} (kind : reference.kind = "aws-volume")
      (asked : ∃ reply, x = ⟨.describeVolumes (.ids [reference.id]) "", reply⟩)
      (read : Reread shownVolumes AwsVolume.volumeID (VerifiedVolume p a) volumeMissing x reference.id s.volumes volumes) :
      DependencyRead p a x reference s { s with volumes := volumes }
  | interface {interfaces : GoMap String AwsInterface} (kind : reference.kind = "aws-network-interface")
      (asked : ∃ reply, x = ⟨.describeNetworkInterfaces (.ids [reference.id]) "", reply⟩)
      (read : Reread shownInterfaces AwsInterface.interfaceID (fun n => interfaceOwned p a n) interfaceMissing x
        reference.id s.interfaces interfaces) :
      DependencyRead p a x reference s { s with interfaces := interfaces }

theorem awsRecordedDependency_returns (run : (awsRecordedDependency p a reference s).Returns trace (.ok s')) :
    ∃ x, trace = [x] ∧ DependencyRead p a x reference s s' := by
  unfold awsRecordedDependency at run
  split at run
  · rename_i kind
    split at run
    · simp at run
    rw [returns_ask] at run
    obtain ⟨reply, later, rfl, run⟩ := run
    split at run
    · rename_i e
      split at run
      · rename_i missing
        obtain ⟨rfl, same⟩ := returns_pure.mp run
        cases same
        exact ⟨_, rfl, .volume kind ⟨_, rfl⟩ (.gone rfl (by simpa [volumeMissing] using missing))⟩
      · simp at run
    · rename_i v next
      split at run
      · simp at run
      rename_i accepted
      simp only [not_or, Decidable.not_not, Bool.not_eq_eq_eq_not, Bool.not_true, Bool.not_eq_false] at accepted
      obtain ⟨rfl, same⟩ := returns_pure.mp run
      cases same
      exact ⟨_, rfl, .volume kind ⟨_, rfl⟩ (.found rfl accepted.1 accepted.2)⟩
    · simp at run
  · split at run
    · rename_i kind
      split at run
      · simp at run
      rw [returns_ask] at run
      obtain ⟨reply, later, rfl, run⟩ := run
      split at run
      · rename_i e
        split at run
        · rename_i missing
          obtain ⟨rfl, same⟩ := returns_pure.mp run
          cases same
          exact ⟨_, rfl, .interface kind ⟨_, rfl⟩ (.gone rfl (by simpa [interfaceMissing] using missing))⟩
        · simp at run
      · rename_i n next
        split at run
        · simp at run
        rename_i accepted
        simp only [not_or, Decidable.not_not, Bool.not_eq_eq_eq_not, Bool.not_true, Bool.not_eq_false] at accepted
        obtain ⟨rfl, same⟩ := returns_pure.mp run
        cases same
        exact ⟨_, rfl, .interface kind ⟨_, rfl⟩ (.found rfl accepted.1 accepted.2)⟩
      · simp at run
    · simp at run

/-- A recorded dependency is in the inventory or was found missing. -/
def Accounted (trace : List (Exchange CloudCalls)) (s : AwsInventory) (reference : ResourceReference) : Prop :=
  (reference.kind = "aws-volume" ∧ (reference.id ∈ s.volumes ∨ ∃ x ∈ trace, volumeMissing reference.id x)) ∨
    (reference.kind = "aws-network-interface" ∧
      (reference.id ∈ s.interfaces ∨ ∃ x ∈ trace, interfaceMissing reference.id x))

theorem DependencyRead.shown (read : DependencyRead p a x reference s s')
    (known : AwsShown p a trace s) : AwsShown p a (trace ++ [x]) s' := by
  cases read with
  | volume kind asked read =>
    obtain ⟨reply, rfl⟩ := asked
    exact ⟨known.instances.ignore rfl, known.volumes.reread read, known.interfaces.ignore rfl⟩
  | interface kind asked read =>
    obtain ⟨reply, rfl⟩ := asked
    exact ⟨known.instances.ignore rfl, known.volumes.ignore rfl, known.interfaces.reread read⟩

theorem DependencyRead.accounted (read : DependencyRead p a x reference s s') :
    Accounted (trace ++ [x]) s' reference := by
  cases read with
  | volume kind asked read =>
    exact .inl ⟨kind, read.settled.imp id fun missing => ⟨x, by simp, missing⟩⟩
  | interface kind asked read =>
    exact .inr ⟨kind, read.settled.imp id fun missing => ⟨x, by simp, missing⟩⟩

/-- An inventory accounts for a dependency also after the next one was read. -/
theorem DependencyRead.stays {other : ResourceReference}
    (read : DependencyRead p a x reference s s') (before : Accounted trace s other) :
    Accounted (trace ++ [x]) s' other := by
  have earlier {missing : Exchange CloudCalls → Bool} (asked : ∃ y ∈ trace, missing y) :
      ∃ y ∈ trace ++ [x], missing y := by
    obtain ⟨y, member, gone⟩ := asked
    exact ⟨y, by simp [member], gone⟩
  have now {missing : Exchange CloudCalls → Bool} (gone : missing x) : ∃ y ∈ trace ++ [x], missing y :=
    ⟨x, by simp, gone⟩
  cases read with
  | volume kind asked read =>
    obtain ⟨own, held | gone⟩ | ⟨own, held | gone⟩ := before
    · exact .inl ⟨own, (read.kept held).imp id now⟩
    · exact .inl ⟨own, .inr (earlier gone)⟩
    · exact .inr ⟨own, .inl held⟩
    · exact .inr ⟨own, .inr (earlier gone)⟩
  | interface kind asked read =>
    obtain ⟨own, held | gone⟩ | ⟨own, held | gone⟩ := before
    · exact .inl ⟨own, .inl held⟩
    · exact .inl ⟨own, .inr (earlier gone)⟩
    · exact .inr ⟨own, (read.kept held).imp id now⟩
    · exact .inr ⟨own, .inr (earlier gone)⟩

theorem DependencyRead.vm (read : DependencyRead p a x reference s s') : s'.vm = s.vm := by
  cases read <;> rfl

/-- Such a read is no page of a listing. -/
theorem DependencyRead.tokens (read : DependencyRead p a x reference s s') :
    volumeTokens p a x = none ∧ interfaceTokens p a x = none := by
  cases read with
  | volume kind asked read =>
    obtain ⟨reply, rfl⟩ := asked
    refine ⟨?_, rfl⟩
    rcases reply with e | _ | page <;> rfl
  | interface kind asked read =>
    obtain ⟨reply, rfl⟩ := asked
    refine ⟨rfl, ?_⟩
    rcases reply with e | _ | page <;> rfl

/-- Reads one after the other, whatever each of them keeps. -/
theorem recordedDependencies_keeps (keep : List (Exchange CloudCalls) → AwsInventory → Prop)
    (oneRead : ∀ {x reference s s' before}, DependencyRead p a x reference s s' → keep before s →
      keep (before ++ [x]) s') :
    ∀ {references : List ResourceReference} {s : AwsInventory} {trace before : List (Exchange CloudCalls)},
      (recordedDependencies p a references s).Returns trace (.ok s') → keep before s → keep (before ++ trace) s'
  | [], s, trace, before, run, holds => by
    obtain ⟨rfl, same⟩ := returns_pure.mp run
    cases same
    simpa using holds
  | reference :: rest, s, trace, before, run, holds => by
    rw [recordedDependencies, returns_bind] at run
    obtain ⟨first, later, result, rfl, read, run⟩ := run
    cases result with
    | error e => simp at run
    | ok middle =>
      obtain ⟨x, rfl, dependency⟩ := awsRecordedDependency_returns read
      rw [← List.append_assoc]
      exact recordedDependencies_keeps keep oneRead run (oneRead dependency holds)

theorem recordedDependencies_accounted : ∀ {references : List ResourceReference} {s : AwsInventory}
    {trace before : List (Exchange CloudCalls)}, (recordedDependencies p a references s).Returns trace (.ok s') →
      ∀ reference ∈ references, Accounted (before ++ trace) s' reference
  | reference :: rest, s, trace, before, run, other, member => by
    rw [recordedDependencies, returns_bind] at run
    obtain ⟨first, later, result, rfl, read, run⟩ := run
    cases result with
    | error e => simp at run
    | ok middle =>
      obtain ⟨x, rfl, dependency⟩ := awsRecordedDependency_returns read
      rw [← List.append_assoc]
      obtain rfl | member := List.mem_cons.mp member
      · exact recordedDependencies_keeps (fun trace s => Accounted trace s other) DependencyRead.stays run
          dependency.accounted
      · exact recordedDependencies_accounted run other member

/-! ### Pages of the listings -/

theorem instancePage_tokens (run : (instancePage p a s token).Returns trace (.ok (s', next))) :
    trace.filterMap (volumeTokens p a) = [] ∧ trace.filterMap (interfaceTokens p a) = [] := by
  obtain ⟨reply, rfl, _⟩ := instancePage_returns run
  exact ⟨rfl, rfl⟩

theorem volumePage_effect (run : (volumePage p a s token).Returns trace (.ok (s', next))) :
    trace.filterMap (volumeTokens p a) = [(token, next.getD "")] ∧ trace.filterMap (interfaceTokens p a) = [] ∧
      s'.vm = s.vm := by
  obtain ⟨page, rfl, rfl, read⟩ := volumePage_returns run
  exact ⟨by simp [volumeTokens], rfl, (readVolumes_ok read).1⟩

theorem interfacePage_effect (run : (interfacePage p a s token).Returns trace (.ok (s', next))) :
    trace.filterMap (interfaceTokens p a) = [(token, next.getD "")] ∧ trace.filterMap (volumeTokens p a) = [] ∧
      s'.vm = s.vm := by
  obtain ⟨page, rfl, rfl, read⟩ := interfacePage_returns run
  exact ⟨by simp [interfaceTokens], rfl, (readInterfaces_ok read).1⟩

theorem recordedDependencies_tokens {references : List ResourceReference}
    (run : (recordedDependencies p a references s).Returns trace (.ok s')) :
    trace.filterMap (volumeTokens p a) = [] ∧ trace.filterMap (interfaceTokens p a) = [] := by
  have start : (∀ x ∈ ([] : List (Exchange CloudCalls)), volumeTokens p a x = none ∧ interfaceTokens p a x = none) :=
    nofun
  have silent := recordedDependencies_keeps
    (fun trace _ => ∀ x ∈ trace, volumeTokens p a x = none ∧ interfaceTokens p a x = none)
    (fun read kept => by
      intro x member
      obtain before | now := List.mem_append.mp member
      · exact kept x before
      · exact List.mem_singleton.mp now ▸ read.tokens) run start
  exact ⟨List.filterMap_eq_nil_iff.mpr fun x member => (silent x (by simpa using member)).1,
    List.filterMap_eq_nil_iff.mpr fun x member => (silent x (by simpa using member)).2⟩

/-! ### The whole inventory -/

/-- The stages of a successful inventory. -/
theorem awsInventory_returns (run : (awsInventory p a).Returns trace (.ok s)) :
    ∃ first second third fourth, trace = first ++ second ++ third ++ fourth ∧
      ∃ found volumes interfaces references changed,
        Listing (instancePage p a) {} "" first found ∧ identityChanged a found = false ∧
        Listing (volumePage p a) found "" second volumes ∧ Listing (interfacePage p a) volumes "" third interfaces ∧
        mergeResources [] (dependencyReferences a interfaces) = .ok (references, changed) ∧
        (recordedDependencies p a references interfaces).Returns fourth (.ok s) := by
  unfold awsInventory at run
  split at run
  · simp at run
  rw [returns_bind] at run
  obtain ⟨first, later, result, rfl, instances, run⟩ := run
  cases result with
  | error e => simp at run
  | ok found =>
  dsimp only at run
  split at run
  · simp at run
  rename_i same
  rw [returns_bind] at run
  obtain ⟨second, later, result, rfl, volumes, run⟩ := run
  cases result with
  | error e => simp at run
  | ok withVolumes =>
  dsimp only at run
  rw [returns_bind] at run
  obtain ⟨third, later, result, rfl, interfaces, run⟩ := run
  cases result with
  | error e => simp at run
  | ok withInterfaces =>
  dsimp only at run
  split at run
  · simp at run
  rename_i references changed merged
  rw [returns_bind] at run
  obtain ⟨fourth, later, result, rfl, dependencies, run⟩ := run
  cases result with
  | error e => simp at run
  | ok final =>
  dsimp only at run
  split at run
  · simp at run
  obtain ⟨rfl, ended⟩ := returns_pure.mp run
  cases ended
  exact ⟨first, second, third, fourth, by simp, found, withVolumes, withInterfaces, references, changed,
    awsPages_returns instances, by simpa using same, awsPages_returns volumes, awsPages_returns interfaces, merged,
    dependencies⟩

/-- What a successful inventory rests on. -/
structure AwsEvidence (p : Command) (a : Allocation) (trace : List (Exchange CloudCalls)) (s : AwsInventory) : Prop
    extends AwsShown p a trace s where
  identity : ∀ i, s.vm = some i → a.resourceID ≠ "" → i.instanceID = a.resourceID
  recorded : ∀ reference ∈ a.resources, Accounted trace s reference
  volumePages : ToTheEnd "" (trace.filterMap (volumeTokens p a))
  interfacePages : ToTheEnd "" (trace.filterMap (interfaceTokens p a))

theorem awsInventory_evidence (run : (awsInventory p a).Returns trace (.ok s)) : AwsEvidence p a trace s := by
  obtain ⟨first, second, third, fourth, rfl, found, withVolumes, withInterfaces, references, changed, instances, same,
    volumes, interfaces, merged, dependencies⟩ := awsInventory_returns run
  have shownFirst : AwsShown p a first found := instances.keeps (AwsShown p a) instancePage_shown .start
  -- no later stage touches the instance
  obtain ⟨shownSecond, vmSecond⟩ := volumes.keeps (fun trace s => AwsShown p a trace s ∧ s.vm = found.vm)
    (fun read kept => ⟨volumePage_shown read kept.1, (volumePage_effect read).2.2.trans kept.2⟩) ⟨shownFirst, rfl⟩
  obtain ⟨shownThird, vmThird⟩ := interfaces.keeps (fun trace s => AwsShown p a trace s ∧ s.vm = found.vm)
    (fun read kept => ⟨interfacePage_shown read kept.1, (interfacePage_effect read).2.2.trans kept.2⟩) ⟨shownSecond, vmSecond⟩
  obtain ⟨shownLast, vmLast⟩ := recordedDependencies_keeps (fun trace s => AwsShown p a trace s ∧ s.vm = found.vm)
    (fun read kept => ⟨read.shown kept.1, read.vm.trans kept.2⟩) dependencies ⟨shownThird, vmThird⟩
  refine { shownLast with identity := ?_, recorded := ?_, volumePages := ?_, interfacePages := ?_ }
  · intro i set recorded
    rw [vmLast] at set
    have unchanged : a.resourceID = i.instanceID := by simpa [identityChanged, set, recorded] using same
    exact unchanged.symm
  · intro reference member
    have merges := mergeResources_merged merged
    have listed : reference ∈ references := by
      apply (merges.mem reference).mpr
      unfold dependencyReferences
      split <;> simp [member]
    exact recordedDependencies_accounted dependencies reference listed
  · simp only [List.filterMap_append, instances.silent fun read => (instancePage_tokens read).1,
      interfaces.silent fun read => (interfacePage_effect read).2.1, (recordedDependencies_tokens dependencies).1, List.nil_append,
      List.append_nil]
    exact volumes.toTheEnd fun read => (volumePage_effect read).1
  · simp only [List.filterMap_append, instances.silent fun read => (instancePage_tokens read).2,
      volumes.silent fun read => (volumePage_effect read).2.1, (recordedDependencies_tokens dependencies).2, List.nil_append,
      List.append_nil]
    exact interfaces.toTheEnd fun read => (interfacePage_effect read).1

/-! ### The observation -/

theorem observeAWS_returns {ob : Observation} {e : Option GoError} (run : (observeAWS p a).Returns trace (ob, e))
    (known : ob.known) :
    ∃ later s, trace = ⟨.awsSession a.offering.region, none⟩ :: later ∧ (awsInventory p a).Returns later (.ok s) ∧
      s.observation a = (ob, e) := by
  unfold observeAWS at run
  rw [returns_ask] at run
  obtain ⟨session, later, rfl, run⟩ := run
  cases session with
  | some refused =>
    cases run.of_pure
    cases known
  | none =>
    dsimp only at run
    rw [returns_bind] at run
    obtain ⟨first, second, result, rfl, inventory, run⟩ := run
    cases result with
    | error failed =>
      cases run.of_pure
      cases known
    | ok s =>
      obtain ⟨rfl, same⟩ := returns_pure.mp run
      exact ⟨first, s, by simp, inventory, same.symm⟩

/-- What an observation that is known says of the inventory. -/
theorem observation_known {ob : Observation} {e : Option GoError} (observed : s.observation a = (ob, e))
    (succeeds : ob.known ∨ e = none) :
    ob.known ∧ e = none ∧ ob.present = s.present ∧ ob.interrupted = s.interrupted a ∧
      (ob.resourceID = match s.vm with
        | some i => i.instanceID
        | none => a.resourceID) ∧
      Merged (a.resources ++ s.volumes.keys.map (fun id => ⟨"aws-volume", id, ""⟩)
        ++ s.interfaces.keys.map (fun id => ⟨"aws-network-interface", id, ""⟩)) ob.resources := by
  unfold AwsInventory.observation at observed
  cases set : s.vm
  all_goals
    simp only [set] at observed
    split at observed
    · cases observed
      simp at succeeds
    split at observed
    · cases observed
      simp at succeeds
    split at observed
    · cases observed
      simp at succeeds
    rename_i references changed merged
    cases observed
    exact ⟨rfl, rfl, rfl, rfl, rfl, by simpa using mergeResources_merged merged⟩

end Aws

end RunnerScout.Provider
