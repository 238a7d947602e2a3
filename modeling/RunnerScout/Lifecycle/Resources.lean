import Mathlib.Data.Finset.Card
import Mathlib.Data.String.Basic
import RunnerScout.Lifecycle.Allocation

/-! # `MergeResources` is a partial join

Whether references can be merged depends only on the set of them: each is well formed,
an identity stands for one generation, and there are at most 64.  What they merge to is
that set, listed in the order of the identities.  Every law of the merge follows from
these two facts, since sets have it.
-/

namespace RunnerScout.Lifecycle

/-! ## The loop -/

/-- What the loop keeps: each reference is well formed, and its identity stands for
    its generation. -/
structure Merge.Consistent (m : Merge) : Prop where
  valid : ∀ r ∈ m.set, r.invalid = false
  nodup : m.set.Nodup
  identity : ∀ r ∈ m.set, m.identities.lookup (r.kind, r.id) = some r.uid
  bound : m.set.length ≤ 64

/-- A reference that one turn takes: it is well formed and does not contradict what is
    recorded of its identity, and there is room for it. -/
structure Merge.Takes (m : Merge) (r : ResourceReference) (after : Merge) : Prop where
  valid : r.invalid = false
  agrees : ∀ uid, m.identities.lookup (r.kind, r.id) = some uid → uid = r.uid
  set : after.set = if m.set.contains r then m.set else m.set ++ [r]
  identities : after.identities = m.identities.insert (r.kind, r.id) r.uid
  room : after.set.length ≤ 64

theorem Merge.add_takes {m after : Merge} {r : ResourceReference} (added : m.add r = .ok after) : m.Takes r after := by
  unfold Merge.add at added
  split at added
  · cases added
  rename_i valid
  split at added
  · cases added
  rename_i agrees
  dsimp only at added
  generalize grown : (if m.set.contains r then m.set else m.set ++ [r]) = set at added
  split at added
  · cases added
  rename_i room
  cases added
  refine ⟨by simpa using valid, fun uid known => ?_, grown.symm, rfl, Nat.le_of_not_lt room⟩
  simpa [known] using agrees

section Takes

variable {m after : Merge} {r : ResourceReference}

theorem Merge.Takes.mem (takes : m.Takes r after) (x : ResourceReference) : x ∈ after.set ↔ x ∈ m.set ∨ x = r := by
  rw [takes.set]
  split
  · rename_i known
    have known : r ∈ m.set := by simpa using known
    constructor
    · exact .inl
    · rintro (member | rfl)
      · exact member
      · exact known
  · simp

theorem Merge.Takes.consistent (takes : m.Takes r after) (consistent : m.Consistent) : after.Consistent := by
  refine ⟨fun x inside => ?_, ?_, fun x inside => ?_, takes.room⟩
  · obtain earlier | rfl := (takes.mem x).mp inside
    · exact consistent.valid x earlier
    · exact takes.valid
  · rw [takes.set]
    split
    · exact consistent.nodup
    · rename_i fresh
      refine List.nodup_append.mpr ⟨consistent.nodup, List.nodup_singleton r, fun x earlier y this same => ?_⟩
      rw [List.mem_singleton.mp this] at same
      subst same
      exact fresh (List.contains_iff_mem.mpr earlier)
  · rw [takes.identities]
    obtain earlier | rfl := (takes.mem x).mp inside
    · have known := consistent.identity x earlier
      by_cases key : (x.kind, x.id) = (r.kind, r.id)
      · rw [key] at known ⊢
        rw [AList.lookup_insert, takes.agrees _ known]
      · rw [AList.lookup_insert_ne key]
        exact known
    · exact AList.lookup_insert _

end Takes

theorem mergeLoop_consistent : ∀ {references : List ResourceReference} {m after : Merge}, m.Consistent →
    mergeLoop references m = .ok after → after.Consistent
  | [], m, after, consistent, merged => by
    cases merged
    exact consistent
  | r :: rest, m, after, consistent, merged => by
    rw [mergeLoop] at merged
    split at merged
    · cases merged
    · rename_i added
      exact mergeLoop_consistent ((Merge.add_takes added).consistent consistent) merged

/-! ## Merged lists -/

/-- What `MergeResources` makes of a list of references. -/
structure Merged (references merged : List ResourceReference) : Prop where
  mem : ∀ r, r ∈ merged ↔ r ∈ references
  nodup : merged.Nodup
  identity : ∀ r ∈ merged, ∀ x ∈ merged, r.kind = x.kind → r.id = x.id → r.uid = x.uid
  bound : merged.length ≤ 64

theorem mem_mergeLoop {references : List ResourceReference} : ∀ {m after : Merge},
    mergeLoop references m = .ok after → ∀ x, x ∈ after.set ↔ x ∈ m.set ∨ x ∈ references := by
  induction references with
  | nil =>
    intro m after merged x
    cases merged
    simp
  | cons r rest ih =>
    intro m after merged x
    rw [mergeLoop] at merged
    split at merged
    · cases merged
    rename_i next added
    rw [ih merged x, (Merge.add_takes added).mem x, List.mem_cons, or_assoc]

theorem mergeResources_merged {current observed merged : List ResourceReference} {changed : Bool}
    (merges : mergeResources current observed = .ok (merged, changed)) : Merged (current ++ observed) merged := by
  unfold mergeResources at merges
  split at merges
  · cases merges
  rename_i m loop
  cases merges
  have consistent : m.Consistent := mergeLoop_consistent ⟨by simp, List.nodup_nil, by simp, Nat.zero_le _⟩ loop
  have perm := List.perm_insertionSort ResourceReference.before m.set
  constructor
  · intro r
    rw [perm.mem_iff, mem_mergeLoop loop r]
    simp
  · exact perm.nodup_iff.mpr consistent.nodup
  · intro r member x other kind id
    -- both generations are the one the identity stands for
    have first := consistent.identity r (perm.mem_iff.mp member)
    have second := consistent.identity x (perm.mem_iff.mp other)
    rw [kind, id, second] at first
    exact (Option.some.inj first).symm
  · rw [perm.length_eq]
    exact consistent.bound

/-! ## Which references merge -/

/-- References that can be merged, whatever lists they come in. -/
structure Mergeable (references : Finset ResourceReference) : Prop where
  valid : ∀ r ∈ references, r.invalid = false
  identity : ∀ r ∈ references, ∀ x ∈ references, r.kind = x.kind → r.id = x.id → r.uid = x.uid
  bound : references.card ≤ 64

theorem Mergeable.subset {some all : Finset ResourceReference} (mergeable : Mergeable all) (part : some ⊆ all) :
    Mergeable some where
  valid := fun r member => mergeable.valid r (part member)
  identity := fun r member x other => mergeable.identity r (part member) x (part other)
  bound := (Finset.card_le_card part).trans mergeable.bound

theorem not_mergeable_iff {references : Finset ResourceReference} :
    ¬ Mergeable references ↔ (∃ r ∈ references, r.invalid = true) ∨
      (∃ r ∈ references, ∃ x ∈ references, r.kind = x.kind ∧ r.id = x.id ∧ r.uid ≠ x.uid) ∨ 64 < references.card := by
  constructor
  · intro unmergeable
    by_contra none
    simp only [not_or, not_exists, not_and, not_not, not_lt, Bool.not_eq_true] at none
    exact unmergeable ⟨none.1, none.2.1, none.2.2⟩
  · rintro (⟨r, member, malformed⟩ | ⟨r, member, x, other, kind, id, differs⟩ | many) mergeable
    · rw [mergeable.valid r member] at malformed
      cases malformed
    · exact differs (mergeable.identity r member x other kind id)
    · exact absurd mergeable.bound (Nat.not_le.mpr many)

/-- The maps of the loop once it has gone through `references`. -/
structure Merge.Holds (m : Merge) (references : Finset ResourceReference) : Prop extends m.Consistent where
  mem : ∀ r, r ∈ m.set ↔ r ∈ references
  recorded : ∀ kind id uid, m.identities.lookup (kind, id) = some uid → ⟨kind, id, uid⟩ ∈ m.set

theorem Merge.holds_empty : Merge.Holds {} ∅ :=
  ⟨⟨by simp, List.nodup_nil, by simp, Nat.zero_le _⟩, by simp, by simp⟩

theorem Merge.Holds.mergeable {m : Merge} {references : Finset ResourceReference} (holds : m.Holds references) :
    Mergeable references := by
  have set : m.set.toFinset = references := by
    ext r
    rw [List.mem_toFinset, holds.mem r]
  refine ⟨fun r member => holds.valid r ((holds.mem r).mpr member), fun r member x other kind id => ?_, ?_⟩
  · have first := holds.identity r ((holds.mem r).mpr member)
    have second := holds.identity x ((holds.mem x).mpr other)
    rw [kind, id, second] at first
    exact (Option.some.inj first).symm
  · rw [← set, List.toFinset_card_of_nodup holds.nodup]
    exact holds.bound

section Turn

variable {m : Merge} {references : Finset ResourceReference} {r : ResourceReference}

/-- One turn succeeds exactly when what the loop has seen can be merged. -/
theorem Merge.add_succeeds (holds : m.Holds references) (mergeable : Mergeable (insert r references)) :
    m.add r = .ok ⟨if m.set.contains r then m.set else m.set ++ [r],
      m.identities.insert (r.kind, r.id) r.uid⟩ := by
  have valid : r.invalid = false := mergeable.valid r (Finset.mem_insert_self r references)
  have agrees : (m.identities.lookup (r.kind, r.id)).any (· ≠ r.uid) = false := by
    cases found : m.identities.lookup (r.kind, r.id) with
    | none => rfl
    | some uid =>
      have known := (holds.mem _).mp (holds.recorded r.kind r.id uid found)
      have same : uid = r.uid :=
        mergeable.identity _ (Finset.mem_insert_of_mem known) r (Finset.mem_insert_self r references) rfl rfl
      simp [same]
  have room : ¬ (if m.set.contains r then m.set else m.set ++ [r]).length > 64 := by
    split
    · exact Nat.not_lt.mpr holds.bound
    · rename_i fresh
      have fresh : r ∉ m.set := by simpa using fresh
      have card : (insert r references).card = m.set.length + 1 := by
        have set : m.set.toFinset = references := by
          ext x
          rw [List.mem_toFinset, holds.mem x]
        rw [Finset.card_insert_of_notMem fun member => fresh ((holds.mem r).mpr member), ← set,
          List.toFinset_card_of_nodup holds.nodup]
      have bound := mergeable.bound
      rw [List.length_append, List.length_singleton]
      omega
  unfold Merge.add
  simp only [valid, agrees, Bool.false_eq_true, if_false, room]

theorem Merge.add_holds {after : Merge} (holds : m.Holds references) (added : m.add r = .ok after) :
    after.Holds (insert r references) := by
  have takes := Merge.add_takes added
  refine ⟨takes.consistent holds.toConsistent, fun x => ?_, fun kind id uid found => ?_⟩
  · rw [takes.mem x, holds.mem x, Finset.mem_insert, or_comm]
  · rw [takes.mem]
    rw [takes.identities] at found
    by_cases key : (kind, id) = (r.kind, r.id)
    · rw [key, AList.lookup_insert] at found
      cases found
      cases key
      exact .inr rfl
    · rw [AList.lookup_insert_ne key] at found
      exact .inl (holds.recorded kind id uid found)

end Turn

theorem mergeLoop_succeeds {references : List ResourceReference} : ∀ {m : Merge} {seen : Finset ResourceReference},
    m.Holds seen → Mergeable (seen ∪ references.toFinset) → ∃ after, mergeLoop references m = .ok after := by
  induction references with
  | nil => exact fun _ _ => ⟨_, rfl⟩
  | cons r rest ih =>
    intro m seen holds mergeable
    have split : seen ∪ (r :: rest).toFinset = insert r seen ∪ rest.toFinset := by
      rw [List.toFinset_cons, Finset.union_insert, Finset.insert_union]
    rw [split] at mergeable
    have added := Merge.add_succeeds holds (mergeable.subset Finset.subset_union_left)
    rw [mergeLoop, added]
    exact ih (Merge.add_holds holds added) mergeable

theorem mergeLoop_holds {references : List ResourceReference} : ∀ {m after : Merge} {seen : Finset ResourceReference},
    m.Holds seen → mergeLoop references m = .ok after → after.Holds (seen ∪ references.toFinset) := by
  induction references with
  | nil =>
    intro m after seen holds looped
    cases looped
    simpa using holds
  | cons r rest ih =>
    intro m after seen holds looped
    rw [mergeLoop] at looped
    split at looped
    · cases looped
    rename_i next added
    have goesOn := ih (Merge.add_holds holds added) looped
    rwa [Finset.insert_union, ← Finset.union_insert, ← List.toFinset_cons] at goesOn

/-! ## What they merge to -/

/-- The strict order of the identities. -/
def ResourceReference.precedes (a b : ResourceReference) : Prop :=
  a.kind < b.kind ∨ (a.kind = b.kind ∧ a.id < b.id)

instance : Std.Total ResourceReference.before where
  total a b := by
    unfold ResourceReference.before
    obtain less | same | greater := lt_trichotomy a.kind b.kind
    · exact .inl (.inl less)
    · obtain below | above := le_total a.id b.id
      · exact .inl (.inr ⟨same, below⟩)
      · exact .inr (.inr ⟨same.symm, above⟩)
    · exact .inr (.inl greater)

instance : IsTrans ResourceReference ResourceReference.before where
  trans a b c := by
    rintro (less | ⟨same, below⟩) (less' | ⟨same', below'⟩)
    · exact .inl (less.trans less')
    · exact .inl (same' ▸ less)
    · exact .inl (same ▸ less')
    · exact .inr ⟨same.trans same', below.trans below'⟩

theorem precedes_of_before {a b : ResourceReference} (ordered : a.before b)
    (distinct : ¬ (a.kind = b.kind ∧ a.id = b.id)) : a.precedes b := by
  obtain less | ⟨same, below⟩ := ordered
  · exact .inl less
  · exact .inr ⟨same, lt_of_le_of_ne below fun equal => distinct ⟨same, equal⟩⟩

theorem precedes_asymm {a b : ResourceReference} (first : a.precedes b) : ¬ b.precedes a := by
  rintro (less' | ⟨same', below'⟩)
  · obtain less | ⟨same, _⟩ := first
    · exact lt_asymm less less'
    · exact lt_irrefl _ (same ▸ less')
  · obtain less | ⟨_, below⟩ := first
    · exact lt_irrefl _ (same' ▸ less)
    · exact lt_asymm below below'

/-- A set of references has one listing in the order of the identities. -/
theorem eq_of_precedes {first second : List ResourceReference} (ordered : first.Pairwise ResourceReference.precedes)
    (ordered' : second.Pairwise ResourceReference.precedes) (same : ∀ r, r ∈ first ↔ r ∈ second) : first = second := by
  have nodup {list : List ResourceReference} (ordered : list.Pairwise ResourceReference.precedes) : list.Nodup :=
    ordered.imp fun {a b} first => by
      rintro rfl
      exact precedes_asymm first first
  have perm := (List.perm_ext_iff_of_nodup (nodup ordered) (nodup ordered')).mpr same
  exact perm.eq_of_pairwise (fun _ _ _ _ first second => absurd second (precedes_asymm first)) ordered ordered'

section Results

variable {current observed merged : List ResourceReference} {changed : Bool}

theorem mergeResources_succeeds :
    (∃ result, mergeResources current observed = .ok result) ↔ Mergeable (current ++ observed).toFinset := by
  constructor
  · rintro ⟨result, merges⟩
    unfold mergeResources at merges
    split at merges
    · cases merges
    rename_i m looped
    simpa using (mergeLoop_holds Merge.holds_empty looped).mergeable
  · intro mergeable
    rw [← Finset.empty_union (current ++ observed).toFinset] at mergeable
    obtain ⟨after, looped⟩ := mergeLoop_succeeds Merge.holds_empty mergeable
    unfold mergeResources
    rw [looped]
    exact ⟨_, rfl⟩

theorem mergeResources_ordered (merges : mergeResources current observed = .ok (merged, changed)) :
    merged.Pairwise ResourceReference.precedes := by
  have canonical := mergeResources_merged merges
  have ordered : merged.Pairwise ResourceReference.before := by
    unfold mergeResources at merges
    split at merges
    · cases merges
    cases merges
    exact List.pairwise_insertionSort _ _
  have both := (List.Pairwise.and_mem.mp ordered).and canonical.nodup
  refine both.imp fun {a b} ⟨⟨member, other, first⟩, different⟩ => precedes_of_before first fun ⟨kind, id⟩ => ?_
  -- one identity has one generation, so two references of a merged list differ in it
  have uid := canonical.identity a member b other kind id
  obtain ⟨aKind, aID, aUID⟩ := a
  obtain ⟨bKind, bID, bUID⟩ := b
  cases kind
  cases id
  cases uid
  exact different rfl

theorem mergeResources_changed (merges : mergeResources current observed = .ok (merged, changed)) :
    changed = false ↔ current = merged := by
  unfold mergeResources at merges
  split at merges
  · cases merges
  cases merges
  simp

/-- The list two lists merge to. -/
def merge (current observed : List ResourceReference) : Option (List ResourceReference) :=
  match mergeResources current observed with
  | .ok (merged, _) => some merged
  | .error _ => none

theorem merge_eq_some : merge current observed = some merged ↔
    Mergeable (current ++ observed).toFinset ∧ (∀ r, r ∈ merged ↔ r ∈ current ++ observed) ∧
      merged.Pairwise ResourceReference.precedes := by
  constructor
  · intro merges
    unfold merge at merges
    split at merges
    · rename_i result changed succeeds
      cases merges
      exact ⟨mergeResources_succeeds.mp ⟨_, succeeds⟩, (mergeResources_merged succeeds).mem,
        mergeResources_ordered succeeds⟩
    · cases merges
  · rintro ⟨mergeable, members, ordered⟩
    obtain ⟨⟨result, changed⟩, succeeds⟩ := mergeResources_succeeds.mpr mergeable
    rw [merge, succeeds]
    refine congrArg some (eq_of_precedes (mergeResources_ordered succeeds) ordered fun r => ?_)
    rw [(mergeResources_merged succeeds).mem r, members r]

theorem merge_eq_none : merge current observed = none ↔ ¬ Mergeable (current ++ observed).toFinset := by
  rw [← mergeResources_succeeds, merge]
  cases mergeResources current observed <;> simp

/-- Nothing but the set of references counts. -/
theorem merge_congr {current' observed' : List ResourceReference}
    (same : ∀ r, r ∈ current ++ observed ↔ r ∈ current' ++ observed') :
    merge current observed = merge current' observed' := by
  have sets : (current ++ observed).toFinset = (current' ++ observed').toFinset := by
    ext r
    rw [List.mem_toFinset, List.mem_toFinset, same r]
  ext merged
  rw [merge_eq_some, merge_eq_some, sets]
  simp only [same]

theorem merge_comm (current observed : List ResourceReference) : merge current observed = merge observed current :=
  merge_congr fun r => by rw [List.mem_append, List.mem_append, or_comm]

/-- Merging what was merged before is merging everything at once. -/
theorem merge_bind (first second third : List ResourceReference) :
    (merge first second).bind (merge · third) = merge (first ++ second) third := by
  cases merges : merge first second with
  | none =>
    have unmergeable := merge_eq_none.mp merges
    refine (merge_eq_none.mpr fun mergeable => unmergeable (mergeable.subset ?_)).symm
    intro r member
    rw [List.mem_toFinset] at member ⊢
    exact List.mem_append_left _ member
  | some merged =>
    obtain ⟨_, members, _⟩ := merge_eq_some.mp merges
    exact merge_congr fun r => by rw [List.mem_append, members r, ← List.mem_append]

theorem merge_assoc (first second third : List ResourceReference) :
    (merge first second).bind (merge · third) = (merge second third).bind (merge first) := by
  have swap : merge first = (merge · first) := funext (merge_comm first)
  rw [merge_bind, swap, merge_bind]
  refine merge_congr fun r => ?_
  simp only [List.mem_append]
  tauto

theorem merge_idem (merges : merge current observed = some merged) : merge merged merged = some merged := by
  obtain ⟨mergeable, members, ordered⟩ := merge_eq_some.mp merges
  have sets : (merged ++ merged).toFinset = (current ++ observed).toFinset := by
    ext r
    simp [members r]
  exact merge_eq_some.mpr ⟨sets ▸ mergeable, fun r => by simp, ordered⟩

/-- A merged list merges again. -/
theorem mergeResources_again {references : List ResourceReference}
    (merges : mergeResources [] references = .ok (merged, changed)) :
    ∃ again, mergeResources [] merged = .ok again := by
  refine mergeResources_succeeds.mpr ((mergeResources_succeeds.mp ⟨_, merges⟩).subset fun r member => ?_)
  rw [List.mem_toFinset, List.nil_append] at member
  rw [List.mem_toFinset]
  exact ((mergeResources_merged merges).mem r).mp member

end Results

/-- `MergeResources` fails for a malformed reference, two generations of one identity
    or more than 64 references, and for nothing else.  It returns the union in the strict
    order of the identities, whatever the order and the repetitions of its arguments, and
    says that nothing changed exactly when the current list is the union in that order.
    It is commutative, associative, and idempotent on what it returns. -/
theorem mergeResources_partial_join (current observed : List ResourceReference) :
    ((∃ e, mergeResources current observed = .error e) ↔
      (∃ r ∈ current ++ observed, r.invalid = true) ∨
        (∃ r ∈ current ++ observed, ∃ x ∈ current ++ observed, r.kind = x.kind ∧ r.id = x.id ∧ r.uid ≠ x.uid) ∨
        64 < (current ++ observed).toFinset.card) ∧
    (∀ merged changed, mergeResources current observed = .ok (merged, changed) →
      (∀ r, r ∈ merged ↔ r ∈ current ∨ r ∈ observed) ∧ merged.Pairwise ResourceReference.precedes ∧
        (changed = false ↔ current = merged) ∧ mergeResources merged merged = .ok (merged, false)) ∧
    (∀ current' observed', (∀ r, r ∈ current ∨ r ∈ observed ↔ r ∈ current' ∨ r ∈ observed') →
      merge current observed = merge current' observed') ∧
    merge current observed = merge observed current ∧
    ∀ later, (merge current observed).bind (merge · later) = (merge observed later).bind (merge current) := by
  refine ⟨?_, ?_, ?_, merge_comm current observed, merge_assoc current observed⟩
  · have fails : (∃ e, mergeResources current observed = .error e) ↔ ¬ Mergeable (current ++ observed).toFinset := by
      rw [← mergeResources_succeeds]
      cases mergeResources current observed <;> simp
    rw [fails, not_mergeable_iff]
    simp only [List.mem_toFinset]
  · intro merged changed merges
    have canonical := mergeResources_merged merges
    refine ⟨fun r => by rw [canonical.mem r, List.mem_append], mergeResources_ordered merges,
      mergeResources_changed merges, ?_⟩
    have again : merge merged merged = some merged := by
      refine merge_idem (?_ : merge current observed = some merged)
      rw [merge, merges]
    unfold merge at again
    split at again
    · rename_i result changed' succeeds
      cases again
      rw [succeeds, (mergeResources_changed succeeds).mpr rfl]
    · cases again
  · intro current' observed' same
    exact merge_congr fun r => by rw [List.mem_append, List.mem_append, same r]

end RunnerScout.Lifecycle
