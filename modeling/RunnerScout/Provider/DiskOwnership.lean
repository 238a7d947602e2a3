import RunnerScout.Provider.Deletion

/-! # Making a disk the allocation's own

A disk is tagged once the reads of one call have tied it to the allocation's virtual
machine, and the update carries every tag it was read with.  The call reports success
only after a read that shows both tags.
-/

namespace RunnerScout.Provider

open Interaction Program Lifecycle

def CloudRequest.tags : CloudRequest → Bool
  | .tagDisk _ _ => true
  | _ => false

/-! ## Tag names -/

/-- The spelling a tag name is kept in. -/
def canonicalTag (name : String) : String :=
  if lowerCase name = "runnerscout-owner" ∨ lowerCase name = "runnerscout-operation" then lowerCase name else name

theorem lowerCase_lowerCase (s : String) : lowerCase (lowerCase s) = lowerCase s := by
  simp [lowerCase, Function.comp_def]

theorem lowerCase_canonicalTag (name : String) : lowerCase (canonicalTag name) = lowerCase name := by
  unfold canonicalTag
  split
  · exact lowerCase_lowerCase name
  · rfl

/-- Every tag is in the snapshot under its canonical spelling, and nothing else is. -/
structure Snapshot (tags : GoMap String (Option String)) (result : GoMap String String) : Prop where
  kept : ∀ name value, tags.lookup name = some value →
    ∃ text, value = some text ∧ result.lookup (canonicalTag name) = some text
  read : ∀ name text, result.lookup name = some text →
    ∃ original, canonicalTag original = name ∧ tags.lookup original = some (some text)

theorem azureTagSnapshot_go : ∀ {entries : List (Sigma fun _ : String => Option String)} {seen : List String}
    {result final : GoMap String String}, azureTagSnapshot.go entries seen result = .ok final →
    (∀ name ∈ result, lowerCase name ∈ seen) →
    (∀ entry ∈ entries, ∃ text, entry.2 = some text) ∧
      ∀ name text, final.lookup name = some text ↔
        result.lookup name = some text ∨ ∃ entry ∈ entries, canonicalTag entry.1 = name ∧ entry.2 = some text
  | [], seen, result, final, goes, known => by
    cases goes
    exact ⟨by simp, by simp⟩
  | ⟨name, value⟩ :: rest, seen, result, final, goes, known => by
    cases value with
    | none => cases goes
    | some text =>
    rw [azureTagSnapshot.go] at goes
    dsimp only at goes
    split at goes
    · cases goes
    rename_i unseen
    change azureTagSnapshot.go rest (lowerCase name :: seen) (result.insert (canonicalTag name) text) = .ok final at goes
    have unseen : lowerCase name ∉ seen := by simpa using unseen
    -- two spellings of one name would have been seen
    have fresh : result.lookup (canonicalTag name) = none := by
      rw [AList.lookup_eq_none]
      exact fun member => unseen (lowerCase_canonicalTag name ▸ known _ member)
    have next : ∀ other ∈ result.insert (canonicalTag name) text, lowerCase other ∈ lowerCase name :: seen := by
      intro other member
      obtain rfl | old := AList.mem_insert _ |>.mp member
      · rw [lowerCase_canonicalTag]
        exact List.mem_cons_self
      · exact List.mem_cons_of_mem _ (known other old)
    obtain ⟨valued, lookups⟩ := azureTagSnapshot_go goes next
    refine ⟨List.forall_mem_cons.mpr ⟨⟨text, rfl⟩, valued⟩, fun other found => ?_⟩
    rw [lookups, List.exists_mem_cons_iff]
    by_cases same : other = canonicalTag name
    · subst same
      rw [AList.lookup_insert, fresh]
      simp
    · rw [AList.lookup_insert_ne same]
      simp [Ne.symm same]

theorem azureTagSnapshot_ok {tags : GoMap String (Option String)} {result : GoMap String String}
    (snapshot : azureTagSnapshot tags = .ok result) : Snapshot tags result := by
  obtain ⟨valued, lookups⟩ := azureTagSnapshot_go snapshot fun name member => absurd member (AList.notMem_empty name)
  refine ⟨fun name value found => ?_, fun name text found => ?_⟩
  · have listed := AList.mem_lookup_iff.mp found
    obtain ⟨text, rfl⟩ := valued _ listed
    exact ⟨text, rfl, (lookups _ _).mpr (.inr ⟨_, listed, rfl, rfl⟩)⟩
  · obtain impossible | ⟨entry, listed, named, valued⟩ := (lookups name text).mp found
    · cases impossible
    · exact ⟨entry.1, named, AList.mem_lookup_iff.mpr (valued ▸ listed)⟩

/-! ## The proof -/

def tagValue (tags : GoMap String String) (key : String) : String := (tags.lookup key).getD ""

/-- Both ownership tags of the allocation. -/
def Owns (p : Command) (a : Allocation) (tags : GoMap String String) : Prop :=
  tagValue tags "runnerscout-owner" = p.config.owner ∧ tagValue tags "runnerscout-operation" = a.id

/-- What a disk and a virtual machine have to show for the disk to be the allocation's. -/
structure Proven (p : Command) (a : Allocation) (disk vm : AzureGeneric) (binding : AzureDiskBinding) : Prop where
  tags : azureTagSnapshot disk.tags = .ok binding.tags
  owner : ∀ value, binding.tags.lookup "runnerscout-owner" = some value → value = p.config.owner
  operation : ∀ value, binding.tags.lookup "runnerscout-operation" = some value → value = a.id
  attached : equalFold disk.managedBy (azureVM p a) = true
  image : ∃ d, disk.disk = some d ∧ equalFold d.createOption "FromImage" = true ∧
    (d.imageID = "" ∨ equalFold d.imageID a.offering.image = true) ∧ azureUUID p d.uniqueID = true ∧
    binding.diskUID = lowerCase d.uniqueID
  graph : ∃ v, vm.vm = some v ∧ equalFold v.imageID a.offering.image = true ∧
    equalFold v.osDiskCreateOption "FromImage" = true ∧
    equalFold v.osDiskID (azureID p "Microsoft.Compute/disks" (a.id ++ "-os")) = true ∧ azureUUID p v.vmID = true ∧
    binding.vmUID = lowerCase v.vmID
  machine : ∃ tags, azureTagSnapshot vm.tags = .ok tags ∧ Owns p a tags
  vmRecorded : ∀ r ∈ a.resources, r.kind = "azure-vm" → r.uid = binding.vmUID
  diskRecorded : ∀ r ∈ a.resources, r.kind = "azure-disk" → r.uid = binding.diskUID

section Binding

variable {p : Command} {a : Allocation} {trace : List (Exchange CloudCalls)} {binding : AzureDiskBinding}

theorem azureDiskBinding_returns (run : (azureDiskBinding p a).Returns trace (.ok binding)) :
    ∃ disk vm, trace = [⟨.getByID (azureID p "Microsoft.Compute/disks" (a.id ++ "-os")) "2024-03-02", .ok disk⟩,
      ⟨.getByID (azureVM p a) "2024-07-01", .ok vm⟩] ∧ Proven p a disk vm binding := by
  unfold azureDiskBinding at run
  split at run
  · simp at run
  rename_i references recorded
  obtain ⟨reply, rest, rfl, readDisk⟩ := returns_ask.mp run
  cases reply with
  | error e => simp at readDisk
  | ok disk =>
  dsimp only at readDisk
  split at readDisk
  · simp at readDisk
  rename_i tags d bound
  obtain ⟨reply, rest, rfl, readVM⟩ := returns_ask.mp readDisk
  cases reply with
  | error e => simp at readVM
  | ok vm =>
  dsimp only at readVM
  split at readVM
  · simp at readVM
  rename_i v boundVM
  split at readVM
  · simp at readVM
  rename_i agrees
  obtain ⟨rfl, same⟩ := returns_pure.mp readVM
  cases same
  refine ⟨disk, vm, rfl, ?_⟩
  have generations (kind uid : String) (pair : (kind, uid) ∈ [("azure-vm", lowerCase v.vmID),
      ("azure-disk", lowerCase d.uniqueID)]) (r : ResourceReference) (member : r ∈ a.resources) (named : r.kind = kind) :
      r.uid = uid := by
    have found := ((azureReferences_ok recorded).1 r member).1
    rw [named] at found
    simp only [Bool.not_eq_true, List.any_eq_false] at agrees
    have same := agrees (kind, uid) pair
    simpa [found] using same
  unfold diskBound at bound
  split at bound
  · cases bound
  split at bound
  · cases bound
  rename_i shown snapshot
  split at bound
  · cases bound
  rename_i unclaimed
  split at bound
  · cases bound
  rename_i attached
  split at bound
  · cases bound
  rename_i properties decoded
  split at bound
  · cases bound
  rename_i created
  split at bound
  · cases bound
  rename_i image
  cases bound
  unfold vmBound at boundVM
  split at boundVM
  · cases boundVM
  rename_i vmTags vmSnapshot
  split at boundVM
  · cases boundVM
  rename_i owned
  split at boundVM
  · cases boundVM
  rename_i machine decodedVM
  split at boundVM
  · cases boundVM
  rename_i createdVM
  split at boundVM
  · cases boundVM
  rename_i graph
  cases boundVM
  simp only [List.any_cons, List.any_nil, Bool.or_false, Bool.not_eq_true, Bool.or_eq_false_iff] at unclaimed
  simp only [not_or, Bool.not_eq_true', Bool.not_eq_false, ne_eq, Decidable.not_not] at created owned createdVM graph
  refine ⟨snapshot, fun value found => ?_, fun value found => ?_, by simpa using attached,
    ⟨d, decoded, created.2.2, ?_, created.1, rfl⟩, ⟨v, decodedVM, graph.1, graph.2.2.1, graph.2.2.2, createdVM.1, rfl⟩,
    ⟨vmTags, vmSnapshot, owned.2.1, owned.2.2⟩, generations _ _ (by simp), generations _ _ (by simp)⟩
  · simpa [found] using unclaimed.1
  · simpa [found] using unclaimed.2
  · simpa [or_iff_not_imp_left] using image

end Binding

/-! ## The update -/

/-- The tags an update carries, given those the disk was read with. -/
structure Sent (p : Command) (a : Allocation) (read update : GoMap String (Option String)) : Prop where
  owner : update.lookup "runnerscout-owner" = some (some p.config.owner)
  operation : update.lookup "runnerscout-operation" = some (some a.id)
  kept : ∀ name value, read.lookup name = some value → update.lookup (canonicalTag name) = some value
  others : ∀ name value, update.lookup name = some value →
    name = "runnerscout-owner" ∨ name = "runnerscout-operation" ∨ read.lookup name = some value

/-- The tags of a binding with the allocation's own. -/
def ownTags (p : Command) (a : Allocation) (tags : GoMap String String) : GoMap String String :=
  (tags.insert "runnerscout-owner" p.config.owner).insert "runnerscout-operation" a.id

def tagUpdate (tags : GoMap String String) : GoMap String (Option String) :=
  tags.entries.foldl (fun update entry => update.insert entry.1 (some entry.2)) ∅

theorem tagUpdate_lookup (tags : GoMap String String) (name : String) :
    (tagUpdate tags).lookup name = (tags.lookup name).map some := by
  have inserted : tagUpdate tags = GoMap.insertAll (tags.entries.map fun entry => (entry.1, some entry.2)) ∅ := by
    rw [tagUpdate, GoMap.insertAll, List.foldl_map]
  have keys : (tags.entries.map fun entry => (entry.1, some entry.2)).map Prod.fst = tags.keys := by
    rw [List.map_map]
    rfl
  rw [inserted]
  cases found : tags.lookup name with
  | some text =>
    refine GoMap.lookup_insertAll_of_mem ?_ (List.mem_map.mpr ⟨_, AList.mem_lookup_iff.mp found, rfl⟩)
    rw [keys]
    exact tags.nodupKeys
  | none =>
    rw [GoMap.lookup_insertAll_of_notMem]
    · rfl
    · rw [keys, ← AList.mem_keys]
      exact AList.lookup_eq_none.mp found

theorem Proven.sent {p : Command} {a : Allocation} {disk vm : AzureGeneric} {binding : AzureDiskBinding}
    (proven : Proven p a disk vm binding) : Sent p a disk.tags (tagUpdate (ownTags p a binding.tags)) := by
  have snapshot := azureTagSnapshot_ok proven.tags
  have different : ("runnerscout-owner" : String) ≠ "runnerscout-operation" := by decide
  have lookup (name : String) : (ownTags p a binding.tags).lookup name =
      if name = "runnerscout-operation" then some a.id
      else if name = "runnerscout-owner" then some p.config.owner else binding.tags.lookup name := by
    unfold ownTags
    split
    · rename_i same
      rw [same, AList.lookup_insert]
    rename_i other
    rw [AList.lookup_insert_ne other]
    split
    · rename_i same
      rw [same, AList.lookup_insert]
    · rename_i another
      rw [AList.lookup_insert_ne another]
  refine ⟨?_, ?_, fun name value found => ?_, fun name value found => ?_⟩
  · rw [tagUpdate_lookup, lookup, if_neg different, if_pos rfl, Option.map_some]
  · rw [tagUpdate_lookup, lookup, if_pos rfl, Option.map_some]
  · obtain ⟨text, rfl, kept⟩ := snapshot.kept name value found
    rw [tagUpdate_lookup, lookup]
    split
    · rename_i same
      rw [proven.operation text (same ▸ kept), Option.map_some]
    split
    · rename_i same
      rw [proven.owner text (same ▸ kept), Option.map_some]
    · rw [kept, Option.map_some]
  · rw [tagUpdate_lookup, lookup] at found
    split at found
    · rename_i same
      exact .inr (.inl same)
    split at found
    · rename_i same
      exact .inl same
    rename_i notOperation notOwner
    obtain ⟨text, shown, rfl⟩ := Option.map_eq_some_iff.mp found
    obtain ⟨original, spelled, listed⟩ := snapshot.read name text shown
    -- an ownership name is always kept in its own spelling, so this one was not changed
    have same : original = name := by
      unfold canonicalTag at spelled
      split at spelled
      · rename_i ownership
        exact (ownership.elim (fun owner => notOwner (spelled ▸ owner))
          fun operation => notOperation (spelled ▸ operation)).elim
      · exact spelled
    exact .inr (.inr (same ▸ listed))

/-! ## The call -/

section Call

variable {p : Command} {a : Allocation} {trace : List (Exchange CloudCalls)}

abbrev Untagging {α : Type} (program : Program CloudCalls α) : Prop :=
  program.Only fun request : CloudRequest => request.tags = false

theorem azureDiskBinding_untagging : Untagging (azureDiskBinding p a) := by
  unfold azureDiskBinding
  split
  · trivial
  refine only_ask.mpr ⟨rfl, fun reply => ?_⟩
  cases reply with
  | error e => trivial
  | ok disk =>
    dsimp only
    split
    · trivial
    refine only_ask.mpr ⟨rfl, fun reply => ?_⟩
    cases reply with
    | error e => trivial
    | ok vm =>
      dsimp only
      split
      · trivial
      split <;> trivial

theorem readSpecs_untagging {allow : Bool} {references : GoMap String ResourceReference} {seen : List String} :
    ∀ {specs : List AzureResourceSpec} {result : List AzureResource},
      Untagging (readSpecs p a allow references seen specs result)
  | [], _ => trivial
  | spec :: rest, result => by
    refine only_ask.mpr ⟨rfl, fun reply => ?_⟩
    cases reply with
    | error e =>
      dsimp only
      split
      · split
        · trivial
        · exact readSpecs_untagging
      · trivial
    | ok resource =>
      dsimp only
      split
      · trivial
      · exact readSpecs_untagging

theorem azureInventory_untagging {allow : Bool} : Untagging (azureInventory p a allow) := by
  unfold azureInventory
  split
  · trivial
  refine only_ask.mpr ⟨rfl, fun pages => ?_⟩
  split
  · trivial
  split
  · trivial
  · exact readSpecs_untagging

/-- The two reads of a binding. -/
def bindingReads (p : Command) (a : Allocation) (disk vm : AzureGeneric) : List (Exchange CloudCalls) :=
  [⟨.getByID (azureID p "Microsoft.Compute/disks" (a.id ++ "-os")) "2024-03-02", .ok disk⟩,
    ⟨.getByID (azureVM p a) "2024-07-01", .ok vm⟩]

/-- The references a binding proves. -/
def boundReferences (p : Command) (a : Allocation) (binding : AzureDiskBinding) : List ResourceReference :=
  [⟨"azure-vm", azureVM p a, binding.vmUID⟩,
    ⟨"azure-disk", azureID p "Microsoft.Compute/disks" (a.id ++ "-os"), binding.diskUID⟩]

/-- How the call ends. -/
inductive Finishes (p : Command) (a : Allocation) : List (Exchange CloudCalls) → Creation → Option GoError → Prop where
  | unbound (trace : List (Exchange CloudCalls)) (e : GoError) :
      Finishes p a trace { resourceID := azureVM p a } (some e)
  | unmerged (disk vm : AzureGeneric) (binding : AzureDiskBinding) (e : GoError) (proven : Proven p a disk vm binding)
      (failed : mergeResources a.resources (boundReferences p a binding) = .error e) :
      Finishes p a (bindingReads p a disk vm)
        { resourceID := azureVM p a, resources := boundReferences p a binding } (some e)
  | unread (disk vm : AzureGeneric) (binding : AzureDiskBinding) (later : List (Exchange CloudCalls)) (e : GoError)
      (proven : Proven p a disk vm binding) :
      Finishes p a (bindingReads p a disk vm ++ later)
        { resourceID := azureVM p a, resources := boundReferences p a binding } (some e)
  | observed (disk vm : AzureGeneric) (binding : AzureDiskBinding) (reads rest : List (Exchange CloudCalls))
      (merged : List ResourceReference) (changed : Bool) (resources : List AzureResource) (ob : Observation)
      (endpoint : String) (err : Option GoError) (proven : Proven p a disk vm binding)
      (merges : mergeResources a.resources (boundReferences p a binding) = .ok (merged, changed))
      (inventory : (azureInventory p { a with resources := merged } true).Returns reads (.ok resources))
      (observes : azureObservation p { a with resources := merged } resources = .ok ob)
      (shown : err = none → ∃ x shownDisk shownVM confirmed,
        bindingReads p a shownDisk shownVM <:+: bindingReads p a disk vm ++ (reads ++ rest) ∧
        Proven p x shownDisk shownVM confirmed ∧ x.id = a.id ∧ Owns p a confirmed.tags ∧
        confirmed.vmUID = binding.vmUID ∧ confirmed.diskUID = binding.diskUID) :
      Finishes p a (bindingReads p a disk vm ++ (reads ++ rest))
        { resourceID := azureVM p a, resources := ob.resources, wireGuardEndpoint := endpoint } err

theorem tagOwnDisk_reaches {proof : Allocation} {binding : AzureDiskBinding} {receipt : Creation} {id : String}
    {update : GoMap String (Option String)}
    (run : (tagOwnDisk p a proof binding receipt).Reaches trace (.tagDisk id update)) :
    trace = [] ∧ id = a.id ∧ update = tagUpdate (ownTags p a binding.tags) := by
  unfold tagOwnDisk at run
  dsimp only at run
  split at run
  · exact absurd run not_reaches_done
  obtain ⟨rfl, same⟩ | ⟨reply, later, rfl, goesOn⟩ := reaches_ask run
  · cases same
    exact ⟨rfl, rfl, rfl⟩
  cases reply with
  | some e => exact absurd goesOn not_reaches_done
  | none =>
    obtain inside | ⟨_, _, confirmed, _, _, ends⟩ := reaches_bind goesOn
    · cases azureDiskBinding_untagging.reaches inside
    cases confirmed with
    | error e => exact absurd ends not_reaches_done
    | ok confirmed =>
      dsimp only at ends
      split at ends <;> exact absurd ends not_reaches_done

theorem tagOwnDisk_returns {proof : Allocation} {binding : AzureDiskBinding} {receipt after : Creation}
    {err : Option GoError} (run : (tagOwnDisk p a proof binding receipt).Returns trace (after, err)) :
    after = receipt ∧ (err = none → Owns p a binding.tags ∨ ∃ update later confirmed,
      trace = ⟨.tagDisk a.id update, none⟩ :: later ∧ (azureDiskBinding p proof).Returns later (.ok confirmed) ∧
      Owns p a confirmed.tags ∧ confirmed.vmUID = binding.vmUID ∧ confirmed.diskUID = binding.diskUID) := by
  unfold tagOwnDisk at run
  dsimp only at run
  split at run
  · rename_i owned
    cases run.of_pure
    exact ⟨rfl, fun _ => .inl (by simpa [Owns, tagValue] using owned)⟩
  obtain ⟨reply, later, rfl, goesOn⟩ := returns_ask.mp run
  cases reply with
  | some e =>
    cases goesOn.of_pure
    exact ⟨rfl, fun succeeded => by cases succeeded⟩
  | none =>
    obtain ⟨first, second, confirmed, rfl, confirms, ends⟩ := returns_bind.mp goesOn
    cases confirmed with
    | error e =>
      cases ends.of_pure
      exact ⟨rfl, fun succeeded => by cases succeeded⟩
    | ok confirmed =>
      dsimp only at ends
      split at ends
      · cases ends.of_pure
        exact ⟨rfl, fun succeeded => by cases succeeded⟩
      · rename_i agrees
        obtain ⟨rfl, same⟩ := returns_pure.mp ends
        cases same
        simp only [not_or, ne_eq, Decidable.not_not, Bool.not_eq_true', Bool.not_eq_false, Bool.and_eq_true,
          decide_eq_true_eq] at agrees
        exact ⟨rfl, fun _ => .inr ⟨_, first, confirmed, by rw [List.append_nil], confirms, agrees.2.2, agrees.1,
          agrees.2.1⟩⟩

theorem finishAzureDiskOwnership_returns {receipt : Creation} {err : Option GoError}
    (run : (finishAzureDiskOwnership p a).Returns trace (receipt, err)) : Finishes p a trace receipt err := by
  unfold finishAzureDiskOwnership at run
  dsimp only at run
  obtain ⟨first, second, bound, rfl, binds, goesOn⟩ := returns_bind.mp run
  cases bound with
  | error e =>
    cases goesOn.of_pure
    exact .unbound _ e
  | ok binding =>
  obtain ⟨disk, vm, rfl, proven⟩ := azureDiskBinding_returns binds
  dsimp only at goesOn
  split at goesOn
  · rename_i e failed
    obtain ⟨rfl, same⟩ := returns_pure.mp goesOn
    cases same
    exact .unmerged disk vm binding e proven failed
  rename_i merged changed merges
  obtain ⟨reads, rest, found, rfl, inventory, observing⟩ := returns_bind.mp goesOn
  cases found with
  | error e =>
    cases observing.of_pure
    exact .unread disk vm binding _ e proven
  | ok resources =>
  dsimp only at observing
  split at observing
  · rename_i e failed
    cases observing.of_pure
    exact .unread disk vm binding _ e proven
  rename_i ob observes
  split at observing
  · cases observing.of_pure
    exact .observed disk vm binding reads rest merged changed resources ob _ _ proven merges inventory observes
      fun succeeded => by cases succeeded
  obtain ⟨rfl, confirmed⟩ := tagOwnDisk_returns observing
  refine .observed disk vm binding reads rest merged changed resources ob _ err proven merges inventory observes
    fun succeeded => ?_
  obtain owned | ⟨update, later, again, rfl, confirms, owned, sameVM, sameDisk⟩ := confirmed succeeded
  · exact ⟨a, disk, vm, binding, List.infix_append' [] _ _ , proven, rfl, owned, rfl, rfl⟩
  · obtain ⟨shownDisk, shownVM, rfl, provenAgain⟩ := azureDiskBinding_returns confirms
    refine ⟨_, shownDisk, shownVM, again, ?_, provenAgain, rfl, owned, sameVM, sameDisk⟩
    refine ⟨bindingReads p a disk vm ++ (reads ++ [⟨.tagDisk a.id update, none⟩]), [], ?_⟩
    simp [bindingReads, azureVM]

/-- A tag update is asked for after reads only, by which the disk is the allocation's. -/
theorem finishAzureDiskOwnership_reaches {id : String} {update : GoMap String (Option String)}
    (run : (finishAzureDiskOwnership p a).Reaches trace (.tagDisk id update)) :
    (∀ x ∈ trace, x.request.tags = false) ∧ id = a.id ∧ ∃ disk vm binding, bindingReads p a disk vm <+: trace ∧
      Proven p a disk vm binding ∧ Sent p a disk.tags update := by
  unfold finishAzureDiskOwnership at run
  dsimp only at run
  obtain early | ⟨first, second, bound, rfl, binds, goesOn⟩ := reaches_bind run
  · cases azureDiskBinding_untagging.reaches early
  cases bound with
  | error e => exact absurd goesOn not_reaches_done
  | ok binding =>
  obtain ⟨disk, vm, reads, proven⟩ := azureDiskBinding_returns binds
  dsimp only at goesOn
  split at goesOn
  · exact absurd goesOn not_reaches_done
  obtain early | ⟨third, fourth, found, rfl, inventory, observing⟩ := reaches_bind goesOn
  · cases azureInventory_untagging.reaches early
  cases found with
  | error e => exact absurd observing not_reaches_done
  | ok resources =>
  dsimp only at observing
  split at observing
  · exact absurd observing not_reaches_done
  split at observing
  · exact absurd observing not_reaches_done
  obtain ⟨rfl, rfl, rfl⟩ := tagOwnDisk_reaches observing
  refine ⟨fun x member => ?_, rfl, disk, vm, binding, ⟨third ++ [], by rw [reads, bindingReads]⟩, proven, proven.sent⟩
  rw [List.append_nil, List.mem_append] at member
  obtain bound | listed := member
  · exact (azureDiskBinding_untagging.performs binds).1 x bound
  · exact (azureInventory_untagging.performs inventory).1 x listed

/-- Two tag updates would have the first among the reads of the second. -/
theorem finishAzureDiskOwnership_tags_once {rest : Program CloudCalls (Creation × Option GoError)}
    (run : (finishAzureDiskOwnership p a).Performs trace rest) : trace.countP (fun x => x.request.tags) ≤ 1 := by
  rw [List.countP_eq_length_filter]
  match updates : trace.filter fun x => x.request.tags with
  | [] => exact updates ▸ Nat.zero_le 1
  | [_] => exact updates ▸ Nat.le_refl 1
  | x :: y :: more =>
    obtain ⟨before, after, rfl, _, first, others⟩ := List.filter_eq_cons_iff.mp updates
    obtain ⟨between, _, rfl, _, second, _⟩ := List.filter_eq_cons_iff.mp others
    have reached := run.reaches (List.append_assoc before (x :: between) _).symm
    obtain ⟨id, update, asked⟩ : ∃ id update, y.request = .tagDisk id update := by
      cases request : y.request <;> simp_all [CloudRequest.tags]
    rw [asked] at reached
    have earlier := (finishAzureDiskOwnership_reaches reached).1 x (List.mem_append_right _ List.mem_cons_self)
    rw [earlier] at first
    cases first

end Call

/-- In every run of the call at most one tag update is sent.  Before it the disk was read
    with no other owner's tag, attached to the allocation's virtual machine and created
    from its image, the machine was read with both tags, and their generations are those
    recorded.  The update has every tag that was read, and the two ownership tags.  The
    call succeeds only after a read of the disk, of the same generations, with both. -/
theorem disk_tagging_proven (p : Command) (a : Allocation) :
    (∀ trace rest, (finishAzureDiskOwnership p a).Performs trace rest → trace.countP (fun x => x.request.tags) ≤ 1) ∧
    (∀ trace id update, (finishAzureDiskOwnership p a).Reaches trace (.tagDisk id update) → id = a.id ∧
      ∃ disk vm binding, bindingReads p a disk vm <+: trace ∧ Proven p a disk vm binding ∧ Sent p a disk.tags update) ∧
    ∀ trace receipt, (finishAzureDiskOwnership p a).Returns trace (receipt, none) →
      ∃ disk vm binding, bindingReads p a disk vm <+: trace ∧ Proven p a disk vm binding ∧
        ∃ x shownDisk shownVM confirmed, bindingReads p a shownDisk shownVM <:+: trace ∧
          Proven p x shownDisk shownVM confirmed ∧ x.id = a.id ∧ Owns p a confirmed.tags ∧
          confirmed.vmUID = binding.vmUID ∧ confirmed.diskUID = binding.diskUID := by
  refine ⟨fun trace rest => finishAzureDiskOwnership_tags_once, fun trace id update run => ?_, fun trace receipt run => ?_⟩
  · exact (finishAzureDiskOwnership_reaches run).2
  · have finishes := finishAzureDiskOwnership_returns run
    generalize ends : (none : Option GoError) = err at finishes
    cases finishes with
    | unbound => cases ends
    | unmerged => cases ends
    | unread => cases ends
    | observed disk vm binding reads rest _ _ _ _ _ _ proven _ _ _ shown =>
      exact ⟨disk, vm, binding, List.prefix_append _ _, proven, shown ends.symm⟩

def machineTags : GoMap String (Option String) :=
  (AList.singleton "runnerscout-owner" (some "runnerscout")).insert "runnerscout-operation" (some "runner-1")

/-- A machine, its interface and its disk, of which only the disk is not tagged as the
    allocation's; a listing that lags behind. -/
def diskAnswers (request : CloudRequest) (tags : GoMap String (Option String)) :
    CloudReply request × GoMap String (Option String) :=
  match request with
  | .getByID id _ =>
    match (azureSpecs committedRecord).find? fun spec => azureID azureCommand spec.resourceType spec.name = id with
    | none => (.error { text := "unavailable" }, tags)
    | some spec =>
      (.ok
        { id := id, type := spec.resourceType, name := spec.name
          managedBy := if spec.kind = "azure-disk" then azureVM azureCommand committedRecord else ""
          tags := if spec.kind = "azure-disk" then tags else machineTags
          generation := some { vmID := "v-1", uniqueID := "d-1", resourceGUID := "n-1" }
          vm := some
            { vmID := "v-1", provisioningState := "Succeeded", osDiskName := "runner-1-os", osDiskCreateOption := "FromImage"
              osDiskID := azureID azureCommand "Microsoft.Compute/disks" "runner-1-os" }
          disk := some { uniqueID := "d-1", provisioningState := "Succeeded", createOption := "FromImage" } }, tags)
  | .listByResourceGroup => ([.ok (some [])], tags)
  | .tagDisk _ update => (none, update)
  | request => (bareAccount instanceNotFound request, tags)

def taggingRun : List (Exchange CloudCalls) × (Creation × Option GoError) × GoMap String (Option String) :=
  (finishAzureDiskOwnership azureCommand committedRecord).converse diskAnswers (AList.singleton "team" (some "build"))

/-- The disk is tagged once, keeps the tag it had, and the call ends in success. -/
theorem disk_tagging_proven_untagged :
    taggingRun.1.countP (fun x => x.request.tags) = 1 ∧ taggingRun.2.1.2 = none ∧
      taggingRun.2.2.lookup "team" = some (some "build") ∧
      ∃ disk vm binding, bindingReads azureCommand committedRecord disk vm <+: taggingRun.1 ∧
        Proven azureCommand committedRecord disk vm binding := by
  have ended : taggingRun.1.countP (fun x => x.request.tags) = 1 ∧ taggingRun.2.1.2 = none ∧
      taggingRun.2.2.lookup "team" = some (some "build") := by decide +kernel
  have run := returns_converse (S := CloudCalls) diskAnswers (finishAzureDiskOwnership azureCommand committedRecord)
    (AList.singleton "team" (some "build"))
  rw [← taggingRun, ← Prod.mk.eta (p := taggingRun.2.1), ended.2.1] at run
  obtain ⟨disk, vm, binding, reads, proven, _⟩ := (disk_tagging_proven azureCommand committedRecord).2.2 _ _ run
  exact ⟨ended.1, ended.2.1, ended.2.2, disk, vm, binding, reads, proven⟩

end RunnerScout.Provider
