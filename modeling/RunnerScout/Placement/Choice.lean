import Mathlib.Data.String.Basic
import RunnerScout.Placement

/-! # What `Choose` chooses

The loop of `Choose` is two filters and two flags over a catalog it has checked as a
whole (`scan_eq`), so its result is the least candidate of the first class that has
one, and depends on the set of offerings only.
-/

namespace RunnerScout.Placement

variable {offerings reordered : List Offering} {member : Offering → Bool}

section Classes

variable (r : Requirements) (outcomes : GoMap String Outcome)

/-- An eligible offering of a class that was not tried yet. -/
def candidate (spot : Bool) (o : Offering) : Bool :=
  eligible o r && o.spot == spot && outcomes.lookup o.id = none

/-- An eligible offering of a class whose outcome is neither open nor a rejection. -/
def undecided (spot : Bool) (o : Offering) : Bool :=
  eligible o r && o.spot == spot && outcomes.lookup o.id ≠ none
    && outcomes.lookup o.id ≠ some .capacityRejected

/-- The loop variables after an offering that passed the checks. -/
def Scan.turn (s : Scan) (o : Offering) : Scan where
  seen := o.id :: s.seen
  spot := s.spot ++ [o].filter (candidate r outcomes true)
  ondemand := s.ondemand ++ [o].filter (candidate r outcomes false)
  blocked := s.blocked || undecided r outcomes true o
  onDemandBlocked := s.onDemandBlocked || undecided r outcomes false o

end Classes

/-- A catalog `Choose` goes through to its end. -/
structure Scannable (now : Time) (r : Requirements) (offerings : List Offering) : Prop where
  named : ∀ o ∈ offerings, o.id ≠ ""
  distinct : (offerings.map Offering.id).Nodup
  fresh : ∀ o ∈ offerings, inScope o r = true → invalidOrStale now o = false

theorem Scannable.perm {now : Time} {r : Requirements} (scannable : Scannable now r offerings)
    (perm : reordered.Perm offerings) : Scannable now r reordered where
  named := fun o member => scannable.named o (perm.mem_iff.mp member)
  distinct := (perm.map Offering.id).nodup_iff.mpr scannable.distinct
  fresh := fun o member => scannable.fresh o (perm.mem_iff.mp member)

section Scanning

variable {now : Time} {r : Requirements} {outcomes : GoMap String Outcome} {o : Offering} {s : Scan}

theorem Scan.turn_ineligible (unsuited : eligible o r = false) :
    s.turn r outcomes o = { s with seen := o.id :: s.seen } := by
  simp [Scan.turn, candidate, undecided, unsuited]

/-- The loop goes on with every offering that passes its checks. -/
theorem scan_cons {rest : List Offering} (unseen : ¬ (o.id = "" ∨ s.seen.contains o.id = true))
    (fresh : inScope o r = true → invalidOrStale now o = false) :
    scan now r outcomes (o :: rest) s = scan now r outcomes rest (s.turn r outcomes o) := by
  rw [scan, if_neg unseen]
  dsimp only
  split
  · rename_i outside
    have unsuited : eligible o r = false := Bool.eq_false_iff.mpr fun suits => by
      simp [eligible_inScope suits] at outside
    rw [Scan.turn_ineligible unsuited]
  rename_i inside
  rw [fresh (by simpa using inside), if_neg Bool.false_ne_true]
  split
  · rename_i unsuited
    rw [Scan.turn_ineligible (by simpa using unsuited)]
  rename_i suits
  have suits : eligible o r = true := by simpa using suits
  split
  · rename_i kind
    have kind : o.spot = false := by simpa using kind
    cases outcome : outcomes.lookup o.id with
    | none => simp [Scan.turn, candidate, undecided, suits, kind, outcome]
    | some result => cases result <;> simp [Scan.turn, candidate, undecided, suits, kind, outcome]
  · rename_i kind
    have kind : o.spot = true := by simpa using kind
    cases outcome : outcomes.lookup o.id with
    | none => simp [Scan.turn, candidate, undecided, suits, kind, outcome]
    | some result => cases result <;> simp [Scan.turn, candidate, undecided, suits, kind, outcome]

/-- The whole loop. -/
theorem scan_eq : ∀ {s : Scan}, Scannable now r offerings →
    (∀ o ∈ offerings, o.id ∉ s.seen) →
    scan now r outcomes offerings s = .ok
      { seen := (offerings.map Offering.id).reverse ++ s.seen
        spot := s.spot ++ offerings.filter (candidate r outcomes true)
        ondemand := s.ondemand ++ offerings.filter (candidate r outcomes false)
        blocked := s.blocked || offerings.any (undecided r outcomes true)
        onDemandBlocked := s.onDemandBlocked || offerings.any (undecided r outcomes false) } := by
  induction offerings with
  | nil =>
    intro s _ _
    simp [scan]
  | cons o rest ih =>
    intro s scannable unseen
    obtain ⟨named, distinct, fresh⟩ := scannable
    rw [List.map_cons, List.nodup_cons] at distinct
    have here : ¬ (o.id = "" ∨ s.seen.contains o.id = true) := by
      rw [not_or, List.contains_iff_mem]
      exact ⟨named o List.mem_cons_self, unseen o List.mem_cons_self⟩
    have later : ∀ x ∈ rest, x.id ∉ (s.turn r outcomes o).seen := by
      intro x member
      rw [Scan.turn, List.mem_cons, not_or]
      refine ⟨fun same => distinct.1 (same ▸ List.mem_map_of_mem member), ?_⟩
      exact unseen x (List.mem_cons_of_mem _ member)
    have scannable : Scannable now r rest :=
      ⟨fun x member => named x (List.mem_cons_of_mem _ member), distinct.2,
        fun x member => fresh x (List.mem_cons_of_mem _ member)⟩
    rw [scan_cons here (fresh o List.mem_cons_self), ih scannable later]
    simp only [Scan.turn, List.append_assoc, ← List.filter_append, List.singleton_append, List.any_cons,
      Bool.or_assoc, List.map_cons, List.reverse_cons]

theorem scannable_of_scan : ∀ {s final : Scan},
    scan now r outcomes offerings s = .ok final →
    Scannable now r offerings ∧ ∀ o ∈ offerings, o.id ∉ s.seen := by
  induction offerings with
  | nil => exact fun _ => ⟨⟨by simp, List.nodup_nil, by simp⟩, by simp⟩
  | cons o rest ih =>
    intro s final scanned
    have checked : ¬ (o.id = "" ∨ s.seen.contains o.id = true) ∧ (inScope o r = true → invalidOrStale now o = false) := by
      rw [scan] at scanned
      split at scanned
      · cases scanned
      rename_i unseen
      refine ⟨unseen, fun inside => ?_⟩
      simp only [inside, Bool.not_true, Bool.false_eq_true, if_false] at scanned
      split at scanned
      · cases scanned
      · rename_i fresh
        simpa using fresh
    rw [scan_cons checked.1 checked.2] at scanned
    obtain ⟨⟨named, distinct, fresh⟩, unseen⟩ := ih scanned
    simp only [Scan.turn, List.mem_cons, not_or] at unseen
    simp only [List.contains_iff_mem, not_or] at checked
    refine ⟨⟨List.forall_mem_cons.mpr ⟨checked.1.1, named⟩, ?_, List.forall_mem_cons.mpr ⟨checked.2, fresh⟩⟩,
      List.forall_mem_cons.mpr ⟨checked.1.2, fun x member => (unseen x member).2⟩⟩
    rw [List.map_cons, List.nodup_cons]
    refine ⟨fun again => ?_, distinct⟩
    obtain ⟨x, member, same⟩ := List.mem_map.mp again
    exact (unseen x member).1 same

end Scanning

/-! ## The least candidate -/

instance : Std.Total ranked where
  total a b := by
    unfold ranked
    obtain less | same | greater := lt_trichotomy a.priceMicros b.priceMicros
    · exact .inl (.inl less)
    · obtain below | above := le_total a.id b.id
      · exact .inl (.inr ⟨same, below⟩)
      · exact .inr (.inr ⟨same.symm, above⟩)
    · exact .inr (.inl greater)

instance : IsTrans Offering ranked where
  trans a b c := by
    rintro (less | ⟨same, below⟩) (less' | ⟨same', below'⟩)
    · exact .inl (less.trans less')
    · exact .inl (same' ▸ less)
    · exact .inl (same ▸ less')
    · exact .inr ⟨same.trans same', below.trans below'⟩

theorem ranked_antisymm {a b : Offering} (first : ranked a b) (second : ranked b a) : a.id = b.id := by
  obtain less | ⟨same, below⟩ := first
  · obtain less' | ⟨same', _⟩ := second
    · exact absurd less' (lt_asymm less)
    · exact absurd less (by rw [same']; exact lt_irrefl _)
  · obtain less' | ⟨_, below'⟩ := second
    · exact absurd less' (by rw [same]; exact lt_irrefl _)
    · exact le_antisymm below below'

/-- The member of a class with the least price and, among those, the least identity. -/
def Least (offerings : List Offering) (member : Offering → Bool) (o : Offering) : Prop :=
  o ∈ offerings ∧ member o = true ∧ ∀ x ∈ offerings, member x = true → ranked o x

theorem Least.unique {a b : Offering} (distinct : (offerings.map Offering.id).Nodup)
    (first : Least offerings member a) (second : Least offerings member b) : a = b := by
  have same := ranked_antisymm (first.2.2 b second.1 second.2.1) (second.2.2 a first.1 first.2.1)
  exact List.inj_on_of_nodup_map distinct first.1 second.1 same

theorem Least.perm {o : Offering} (perm : reordered.Perm offerings) :
    Least reordered member o ↔ Least offerings member o := by
  unfold Least
  simp only [perm.mem_iff]

/-- Sorting a class brings its least member to the front. -/
theorem least_of_sorted {rest : List Offering} {o : Offering}
    (sorted : (offerings.filter member).insertionSort ranked = o :: rest) : Least offerings member o := by
  have ordered := List.pairwise_insertionSort ranked (offerings.filter member)
  have listed (x : Offering) : x ∈ o :: rest ↔ x ∈ offerings ∧ member x = true := by
    rw [← sorted, List.mem_insertionSort, List.mem_filter]
  rw [sorted, List.pairwise_cons] at ordered
  obtain ⟨inside, belongs⟩ := (listed o).mp List.mem_cons_self
  refine ⟨inside, belongs, fun x other belongs => ?_⟩
  obtain rfl | later := List.mem_cons.mp ((listed x).mpr ⟨other, belongs⟩)
  · exact .inr ⟨rfl, le_refl _⟩
  · exact ordered.1 x later

theorem sorted_eq_nil :
    (offerings.filter member).insertionSort ranked = [] ↔ ∀ x ∈ offerings, member x = false := by
  rw [← List.length_eq_zero_iff, List.length_insertionSort, List.length_eq_zero_iff, List.filter_eq_nil_iff]
  simp

/-! ## The specification -/

/-- Everything `Choose` checks before it looks at candidates. -/
structure Sound (now : Time) (r : Requirements) (c : Catalog) : Prop extends Scannable now r c.offerings where
  valid : r.validate = none
  complete : ∀ p ∈ r.providers, (c.complete.lookup p).getD false = true

/-- Every eligible spot offering was rejected. -/
def SpotExhausted (r : Requirements) (c : Catalog) (outcomes : GoMap String Outcome) : Prop :=
  ∀ x ∈ c.offerings, x.spot = true → eligible x r = true → outcomes.lookup x.id = some .capacityRejected

/-- What a choice has to be: the least untried spot offering or, once every spot offering
    was rejected and on-demand is allowed, the least untried on-demand offering. -/
def Choice (r : Requirements) (c : Catalog) (outcomes : GoMap String Outcome) (o : Offering) : Prop :=
  Least c.offerings (candidate r outcomes true) o ∨
    SpotExhausted r c outcomes ∧ r.allowOnDemand = true ∧ Least c.offerings (candidate r outcomes false) o

section Specification

variable {now : Time} {r : Requirements} {c : Catalog} {outcomes : GoMap String Outcome} {o : Offering}

/-- Of a class that was rejected as a whole no candidate and no undecided offering is left. -/
theorem rejected_iff {spot : Bool} :
    (∀ x ∈ c.offerings, x.spot = spot → eligible x r = true → outcomes.lookup x.id = some .capacityRejected) ↔
      (∀ x ∈ c.offerings, candidate r outcomes spot x = false) ∧
        c.offerings.any (undecided r outcomes spot) = false := by
  rw [List.any_eq_false]
  constructor
  · intro rejected
    refine ⟨fun x member => ?_, fun x member undecided => ?_⟩
    · cases chosen : candidate r outcomes spot x with
      | false => rfl
      | true =>
        simp only [candidate, Bool.and_eq_true, beq_iff_eq, decide_eq_true_eq] at chosen
        cases (rejected x member chosen.1.2 chosen.1.1).symm.trans chosen.2
    · simp only [Placement.undecided, Bool.and_eq_true, beq_iff_eq, decide_eq_true_eq] at undecided
      exact undecided.2 (rejected x member undecided.1.1.2 undecided.1.1.1)
  · rintro ⟨untried, decided⟩ x member kind suits
    have untried := untried x member
    have decided := decided x member
    by_contra other
    simp [candidate, kind, suits] at untried
    simp [undecided, kind, suits, untried] at decided
    exact other decided

theorem spotExhausted_iff : SpotExhausted r c outcomes ↔
    (∀ x ∈ c.offerings, candidate r outcomes true x = false) ∧ c.offerings.any (undecided r outcomes true) = false :=
  rejected_iff

theorem not_least_of_exhausted (rejected : SpotExhausted r c outcomes) :
    ¬ Least c.offerings (candidate r outcomes true) o := by
  rintro ⟨member, chosen, _⟩
  rw [(spotExhausted_iff.mp rejected).1 o member] at chosen
  cases chosen

/-- The result once all checks have passed, by the two sorted classes. -/
theorem choose_sound (sound : Sound now r c) :
    choose now r c outcomes = .ok o ↔ Choice r c outcomes o := by
  have scanned : scan now r outcomes c.offerings {} = .ok _ := scan_eq sound.toScannable (by simp)
  have complete : r.providers.all (fun p => (c.complete.lookup p).getD false) = true :=
    List.all_eq_true.mpr sound.complete
  unfold choose
  rw [sound.valid, scanned]
  simp only [complete, Bool.not_true, Bool.false_eq_true, if_false, List.nil_append, Bool.false_or]
  cases spot : (c.offerings.filter (candidate r outcomes true)).insertionSort ranked with
  | cons first rest =>
    have least := least_of_sorted spot
    constructor
    · intro same
      cases same
      exact .inl least
    · rintro (chosen | ⟨rejected, _⟩)
      · rw [least.unique sound.distinct chosen]
      · exact absurd least (not_least_of_exhausted rejected)
  | nil =>
    have untried := sorted_eq_nil.mp spot
    have none : ¬ Least c.offerings (candidate r outcomes true) o := by
      rintro ⟨member, chosen, _⟩
      rw [untried o member] at chosen
      cases chosen
    dsimp only
    split
    · rename_i blocked
      refine ⟨fun failed => (by cases failed), ?_⟩
      rintro (chosen | ⟨rejected, _⟩)
      · exact absurd chosen none
      · rw [(spotExhausted_iff.mp rejected).2] at blocked
        cases blocked
    rename_i unblocked
    have rejected : SpotExhausted r c outcomes := spotExhausted_iff.mpr ⟨untried, by simpa using unblocked⟩
    split
    · rename_i forbidden
      refine ⟨fun failed => (by cases failed), ?_⟩
      rintro (chosen | ⟨_, allowed, _⟩)
      · exact absurd chosen none
      · simp [allowed] at forbidden
    rename_i allowed
    have allowed : r.allowOnDemand = true := by simpa using allowed
    cases ondemand : (c.offerings.filter (candidate r outcomes false)).insertionSort ranked with
    | cons first rest =>
      have least := least_of_sorted ondemand
      constructor
      · intro same
        cases same
        exact .inr ⟨rejected, allowed, least⟩
      · rintro (chosen | ⟨_, _, chosen⟩)
        · exact absurd chosen none
        · rw [least.unique sound.distinct chosen]
    | nil =>
      dsimp only
      refine ⟨fun failed => (by split at failed <;> cases failed), ?_⟩
      rintro (chosen | ⟨_, _, member, chosen, _⟩)
      · exact absurd chosen none
      · rw [sorted_eq_nil.mp ondemand o member] at chosen
        cases chosen

theorem sound_of_choose (chosen : choose now r c outcomes = .ok o) : Sound now r c := by
  have complete := (choose_chosen chosen).complete
  unfold choose at chosen
  split at chosen
  · cases chosen
  rename_i valid
  split at chosen
  · cases chosen
  split at chosen
  · cases chosen
  rename_i s scanned
  exact ⟨(scannable_of_scan scanned).1, valid, complete⟩

theorem choose_iff : choose now r c outcomes = .ok o ↔ Sound now r c ∧ Choice r c outcomes o := by
  constructor
  · intro chosen
    have sound := sound_of_choose chosen
    exact ⟨sound, (choose_sound sound).mp chosen⟩
  · rintro ⟨sound, choice⟩
    exact (choose_sound sound).mpr choice

/-- A class with a member has a least one. -/
theorem exists_least (inhabited : ∃ x ∈ c.offerings, member x = true) :
    ∃ o, Least c.offerings member o := by
  cases sorted : (c.offerings.filter member).insertionSort ranked with
  | cons first rest => exact ⟨first, least_of_sorted sorted⟩
  | nil =>
    obtain ⟨x, inside, belongs⟩ := inhabited
    rw [sorted_eq_nil.mp sorted x inside] at belongs
    cases belongs

theorem Choice.perm (perm : reordered.Perm c.offerings) :
    Choice r { c with offerings := reordered } outcomes o ↔ Choice r c outcomes o := by
  unfold Choice SpotExhausted
  rw [Least.perm perm, Least.perm perm]
  simp only [perm.mem_iff]

theorem Sound.perm (perm : reordered.Perm c.offerings) :
    Sound now r { c with offerings := reordered } ↔ Sound now r c := by
  constructor
  · intro sound
    exact ⟨sound.toScannable.perm perm.symm, sound.valid, sound.complete⟩
  · intro sound
    exact ⟨sound.toScannable.perm perm, sound.valid, sound.complete⟩

end Specification

/-- `Choose` succeeds exactly on a sound catalog with an untried eligible spot offering
    or, every eligible spot offering having been rejected and on-demand allowed, with an
    untried eligible on-demand offering.  It returns the cheapest one of that class, the
    first by identity among equals, whatever the order of the catalog. -/
theorem choose_meets_specification (now : Time) (r : Requirements) (c : Catalog) (outcomes : GoMap String Outcome) :
    ((∃ o, choose now r c outcomes = .ok o) ↔ Sound now r c ∧
      ((∃ o ∈ c.offerings, candidate r outcomes true o = true) ∨
        SpotExhausted r c outcomes ∧ r.allowOnDemand = true ∧ ∃ o ∈ c.offerings, candidate r outcomes false o = true)) ∧
    (∀ o, choose now r c outcomes = .ok o →
      if c.offerings.any (candidate r outcomes true) then Least c.offerings (candidate r outcomes true) o
      else Least c.offerings (candidate r outcomes false) o) ∧
    ∀ reordered, reordered.Perm c.offerings →
      ∀ o, choose now r { c with offerings := reordered } outcomes = .ok o ↔ choose now r c outcomes = .ok o := by
  refine ⟨?_, ?_, ?_⟩
  · constructor
    · rintro ⟨o, chosen⟩
      obtain ⟨sound, least | ⟨rejected, allowed, least⟩⟩ := choose_iff.mp chosen
      · exact ⟨sound, .inl ⟨o, least.1, least.2.1⟩⟩
      · exact ⟨sound, .inr ⟨rejected, allowed, o, least.1, least.2.1⟩⟩
    · rintro ⟨sound, spot | ⟨rejected, allowed, ondemand⟩⟩
      · obtain ⟨o, least⟩ := exists_least spot
        exact ⟨o, choose_iff.mpr ⟨sound, .inl least⟩⟩
      · obtain ⟨o, least⟩ := exists_least ondemand
        exact ⟨o, choose_iff.mpr ⟨sound, .inr ⟨rejected, allowed, least⟩⟩⟩
  · intro o chosen
    obtain ⟨_, least | ⟨rejected, _, least⟩⟩ := choose_iff.mp chosen
    · rw [if_pos (List.any_eq_true.mpr ⟨o, least.1, least.2.1⟩)]
      exact least
    · rw [if_neg (by simpa using (spotExhausted_iff.mp rejected).1)]
      exact least
  · intro reordered perm o
    rw [choose_iff, choose_iff, Sound.perm perm, Choice.perm perm]

end RunnerScout.Placement
