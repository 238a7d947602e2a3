import RunnerScout.Lifecycle.Controller

/-! # What one `Step` may do

`View` is what a running `Step` knows: the record it holds, the instant it read,
and what its provider told it.  `View.writes` is the complete list of records it
may save from there.  `step_follows` says that `Controller.step` never asks for
anything else, whatever the store, the clock and the providers answer; every
property of `Step` in a shared world is derived from it.
-/

namespace RunnerScout.Lifecycle

open Interaction Placement

inductive View where
  | start
  | loaded (a : Allocation)
  /-- The record and the instant `Step` decides on; `cleared` once its runner
      registration is known to be gone. -/
  | deciding (now : Time) (a : Allocation) (cleared : Bool)
  | committed (now : Time) (o : Offering) (a : Allocation)
  | created (now : Time) (o : Offering) (a : Allocation) (creation : Creation) (e : Option GoError)
  | observed (now : Time) (a : Allocation) (ob : Observation) (e : Option GoError) (cleared : Bool)
  | closed

def Allocation.expired (a : Allocation) (now : Time) : Bool := !decide (now < a.deadline)

/-- A pending record that will not be created any more. -/
def Allocation.givesUp (a : Allocation) (now : Time) : Bool :=
  a.retire || a.expired now || a.attempts ≥ a.maxAttempts

/-- A record whose resource is due for cleanup. -/
def Allocation.overdue (a : Allocation) (now : Time) : Bool :=
  a.retire || (a.expired now && !a.ready)

/-- The text a confirmed absence leaves behind in each phase. -/
def absentCondition (phase : Phase) (ob : Observation) : String :=
  match phase with
  | .creating => "CreateConfirmedAbsent"
  | .running =>
    if ob.interrupted then "ResourceAbsentConfirmedInterruption" else "ResourceAbsentInterruptionUnproven"
  | _ => "CleanupConfirmed"

/-- The text an undecided observation leaves behind in each phase. -/
def undecidedCondition (phase : Phase) (e : Option GoError) : String :=
  match phase with
  | .creating =>
    "CreateReconciliationUnknown: " ++
      if e.isSome then errorText e else "provider returned unknown create reconciliation"
  | .running =>
    "ResourceObservationUnknown: " ++
      if e.isSome then errorText e else "provider returned unknown resource observation"
  | _ =>
    "CleanupObservationUnknown: " ++
      if e.isSome then errorText e else "provider returned unknown cleanup observation"

/-- What a pending record may be saved as. -/
inductive PendingWrite (c : Controller) (now : Time) (a : Allocation) (cleared : Bool) : Allocation → Prop where
  | timeOut (givesUp : a.givesUp now = true) (deregistered : cleared = true ∨ c.runners = false) :
      PendingWrite c now a cleared (a.timeOut now)
  | refused (waits : a.givesUp now = false) (e : GoError)
      (refused : choose now a.requirements a.catalog (c.outcomes now a) = .error e) :
      PendingWrite c now a cleared { a with condition := e.text }
  | commit (waits : a.givesUp now = false) (o : Offering)
      (chosen : choose now a.requirements a.catalog (c.outcomes now a) = .ok o) :
      PendingWrite c now a cleared (a.commit o)

/-- What a committed record may be saved as once its create call has returned. -/
inductive CreatedWrite (now : Time) (o : Offering) (a : Allocation) (creation : Creation) (e : Option GoError) :
    Allocation → Prop where
  | preparationFailed (rejected : errorIs e .noEffect = true) (empty : creation.empty = true) :
      CreatedWrite now o a creation e (a.preparationFailed e)
  | capacityRejected (rejected : errorIs e .capacity = true) (empty : creation.empty = true) :
      CreatedWrite now o a creation e (a.capacityRejected o.id now)
  | unmerged (ambiguous : definitiveRejection creation e = false) (err : GoError)
      (failed : mergeResources a.resources creation.resources = .error err) :
      CreatedWrite now o a creation e (a.receive creation)
  | uncertain (ambiguous : definitiveRejection creation e = false)
      (unknown : e.isSome = true ∨ creation.resourceID = "") (resources : List ResourceReference) (changed : Bool)
      (merged : mergeResources a.resources creation.resources = .ok (resources, changed)) :
      CreatedWrite now o a creation e (a.uncertain creation resources e)
  | vmCreated (named : creation.resourceID ≠ "") (succeeded : e = none) (resources : List ResourceReference)
      (changed : Bool) (merged : mergeResources a.resources creation.resources = .ok (resources, changed)) :
      CreatedWrite now o a creation e (a.vmCreated creation resources)

/-- What a record may be saved as once its provider was asked about it. -/
inductive ObservedWrite (c : Controller) (now : Time) (a : Allocation) (ob : Observation) (e : Option GoError)
    (cleared : Bool) : Allocation → Prop where
  | remember (resources : List ResourceReference)
      (merged : mergeResources a.resources ob.resources = .ok (resources, true)) :
      ObservedWrite c now a ob e cleared { a with resources := resources }
  | undecided (unknown : e.isSome = true ∨ ob.known = false) :
      ObservedWrite c now a ob e cleared { a with condition := undecidedCondition a.phase e }
  | release (live : a.phase.terminal = false) (absent : ob.absent e)
      (deregistered : cleared = true ∨ c.runners = false) :
      ObservedWrite c now a ob e cleared (a.release now (absentCondition a.phase ob))
  | found (creating : a.phase = .creating) (succeeded : e = none) (known : ob.known = true)
      (present : ob.present = true) :
      ObservedWrite c now a ob e cleared (a.found ob.resourceID (a.overdue now))
  | unconfirmed (deleting : a.phase = .deleting) (err : GoError) :
      ObservedWrite c now a ob e cleared { a with condition := "CleanupUnconfirmed: " ++ err.text }

/-- Every record `Step` may save from a view.  All of them are saved under the
    revision of the record held, and none over one that has ended. -/
inductive View.writes (c : Controller) : View → Allocation → Prop where
  | pending {now a cleared x} (phase : a.phase = .pending) (retains : a.retainsResources = false)
      (write : PendingWrite c now a cleared x) : View.writes c (.deciding now a cleared) x
  | fence {now a cleared} (phase : a.phase = .creating) : View.writes c (.deciding now a cleared) a
  | cleanUp {now a cleared} (phase : a.phase = .running) (overdue : a.overdue now = true) :
      View.writes c (.deciding now a cleared) (a.cleanUp "CleanupPending")
  | created {now o a creation e x} (write : CreatedWrite now o a creation e x) (live : a.phase.terminal = false) :
      View.writes c (.created now o a creation e) x
  | observed {now a ob e cleared x} (write : ObservedWrite c now a ob e cleared x)
      (live : a.phase.terminal = false) :
      View.writes c (.observed now a ob e cleared) x

/-- The record a view holds. -/
def View.held : View → Option Allocation
  | .start | .closed => none
  | .loaded a | .deciding _ a _ | .committed _ _ a | .created _ _ a _ _ | .observed _ a _ _ _ => some a

/-- The requests a view allows. -/
def View.allowed (c : Controller) (view : View) : Request → Prop
  | .load _ => view = .start
  | .now => ∃ a, view = .loaded a
  | .save x revision => view.writes c x ∧ ∃ a, view.held = some a ∧ revision = a.revision
  | .create provider a | .createWithResources provider a =>
    ∃ now o, view = .committed now o a ∧ provider = o.provider
  | .observe provider a =>
    ∃ now, view = .deciding now a false ∧ provider = a.offering.provider ∧
      (a.phase = .creating ∨ (a.phase = .running ∧ a.overdue now = false) ∨ a.phase = .deleting)
  | .reconcileCreation provider a =>
    ∃ now, view = .deciding now a false ∧ provider = a.offering.provider ∧ a.phase = .creating
  | .delete provider a =>
    ∃ now ob, view = .observed now a ob none false ∧ provider = a.offering.provider ∧
      a.phase = .deleting ∧ ob.known = true ∧ ob.present = true
  | .deregisterRunner id =>
    (∃ now a, view = .deciding now a false ∧ id = a.id ∧ a.phase = .pending ∧ a.givesUp now = true) ∨
    (∃ now a ob e, view = .observed now a ob e false ∧ id = a.id ∧ ob.absent e)

/-- A successful save returns the record as it was saved, at its new revision and
    with its resources in canonical order. -/
def Saved (x stored : Allocation) : Prop :=
  stored = { x with revision := stored.revision, resources := stored.resources }

def View.answers : (request : Request) → Reply request → Prop
  | .save x _, .ok stored => Saved x stored
  | _, _ => True

def View.next (view : View) : (request : Request) → Reply request → View
  | .load _, .ok a => .loaded a
  | .now, now =>
    match view with
    | .loaded a => .deciding now a false
    | _ => .closed
  | .save x _, .ok stored =>
    match view with
    | .deciding now a cleared =>
      if a.phase = .pending ∧ x.phase = .creating then .committed now x.offering stored
      else .deciding now stored cleared
    | .observed now _ ob e cleared => .observed now stored ob e cleared
    | _ => .closed
  | .create _ _, (resourceID, e) =>
    match view with
    | .committed now o a => .created now o a { resourceID := resourceID } e
    | _ => .closed
  | .createWithResources _ _, (creation, e) =>
    match view with
    | .committed now o a => .created now o a creation e
    | _ => .closed
  | .observe _ _, (ob, e) | .reconcileCreation _ _, (ob, e) =>
    match view with
    | .deciding now a cleared => .observed now a ob e cleared
    | _ => .closed
  | .delete _ _, some _ => view
  | .deregisterRunner _, none =>
    match view with
    | .deciding now a _ => .deciding now a true
    | .observed now a ob e _ => .observed now a ob e true
    | _ => .closed
  | _, _ => .closed

def stepProtocol (c : Controller) : Protocol Calls View where
  allowed := View.allowed c
  answers := View.answers
  next := View.next

/-! ## `Step` keeps to its protocol -/

section Follows

variable {c : Controller}

theorem save_follows {view : View} {x held : Allocation} (writes : view.writes c x)
    (holds : view.held = some held) (revision : x.revision = held.revision) :
    (save x).Follows (stepProtocol c) view fun _ _ => True := by
  refine .request ⟨writes, held, holds, revision⟩ fun reply _ => ?_
  cases reply <;> exact .done trivial

theorem saveThen_follows {view : View} {x held : Allocation} {e : GoError} (writes : view.writes c x)
    (holds : view.held = some held) (revision : x.revision = held.revision) :
    (saveThen x e).Follows (stepProtocol c) view fun _ _ => True := by
  refine .bind ((save_follows writes holds revision).mono fun result after _ => ?_)
  cases result <;> exact .done trivial

theorem afterCreate_follows (now : Time) (o : Offering) (a : Allocation) (creation : Creation)
    (e : Option GoError) (live : a.phase.terminal = false) :
    (Controller.afterCreate now o a creation e).Follows (stepProtocol c) (.created now o a creation e)
      fun _ _ => True := by
  unfold Controller.afterCreate
  split
  · rename_i rejected
    simp only [Bool.and_eq_true] at rejected
    exact save_follows (.created (.preparationFailed rejected.1 rejected.2) live) rfl rfl
  rename_i effect
  split
  · rename_i rejected
    simp only [Bool.and_eq_true] at rejected
    exact save_follows (.created (.capacityRejected rejected.1 rejected.2) live) rfl rfl
  rename_i capacity
  have ambiguous : definitiveRejection creation e = false := by
    cases empty : creation.empty <;> simp_all [definitiveRejection]
  split
  · rename_i failed
    exact saveThen_follows (.created (.unmerged ambiguous _ failed) live) rfl rfl
  rename_i resources changed merged
  split
  · rename_i unknown
    have unknown : e.isSome = true ∨ creation.resourceID = "" := by simpa using unknown
    dsimp only
    split
    · exact saveThen_follows (.created (.uncertain ambiguous unknown resources changed merged) live) rfl rfl
    · exact .done trivial
  · rename_i certain
    have certain : e = none ∧ creation.resourceID ≠ "" := by
      cases e <;> simp_all
    exact save_follows (.created (.vmCreated certain.2 certain.1 resources changed merged) live) rfl rfl

theorem createCall_follows (p : Provider) (now : Time) (o : Offering) (a : Allocation) :
    (Controller.createCall p o.provider a).Follows (stepProtocol c) (.committed now o a)
      fun result after => after = .created now o a result.1 result.2 := by
  unfold Controller.createCall
  split
  · exact .call ⟨now, o, rfl, rfl⟩ fun reply _ => .done rfl
  · exact .request ⟨now, o, rfl, rfl⟩ fun reply _ => .done rfl

theorem deregister_follows {view after : View} {id : String}
    (allowed : view.allowed c (.deregisterRunner id))
    (next : view.next (.deregisterRunner id) none = after) :
    (c.deregister id).Follows (stepProtocol c) view fun result reached =>
      result = none → (c.runners = false ∧ reached = view) ∨ reached = after := by
  unfold Controller.deregister
  split
  · rename_i runners
    refine .done fun _ => .inl ⟨by simpa using runners, rfl⟩
  · refine .call allowed fun reply _ => .done fun answered => ?_
    subst answered
    exact .inr next

theorem stepPending_follows (now : Time) (a : Allocation) (phase : a.phase = .pending) :
    (c.stepPending now (a.expired now) a).Follows (stepProtocol c) (.deciding now a false)
      fun _ _ => True := by
  unfold Controller.stepPending
  split
  · exact .done trivial
  rename_i retains
  have retains : a.retainsResources = false := by simpa using retains
  split
  · rename_i givesUp
    refine .bind ((deregister_follows (.inl ⟨now, a, rfl, rfl, phase, givesUp⟩) rfl).mono ?_)
    intro result reached answered
    cases result with
    | some e => exact .done trivial
    | none =>
      obtain ⟨runners, rfl⟩ | rfl := answered rfl
      · exact save_follows (.pending phase retains (.timeOut givesUp (.inr runners))) rfl rfl
      · exact save_follows (.pending phase retains (.timeOut givesUp (.inl rfl))) rfl rfl
  rename_i waits
  have waits : a.givesUp now = false := by simpa [Allocation.givesUp] using waits
  split
  · rename_i refused
    exact save_follows (.pending phase retains (.refused waits _ refused)) rfl rfl
  rename_i o chosen
  split
  · exact .done trivial
  rename_i p _
  refine .request ⟨.pending phase retains (.commit waits o chosen), a, rfl, rfl⟩ fun reply answered => ?_
  cases reply with
  | error e => exact .done trivial
  | ok stored =>
    have committed : (stepProtocol c).next (.deciding now a false) (.save (a.commit o) a.revision) (.ok stored) =
        .committed now o stored := by
      simp [stepProtocol, View.next, phase, Allocation.commit]
    rw [committed]
    refine .bind ((createCall_follows p now o stored).mono ?_)
    rintro ⟨creation, e⟩ after rfl
    have saved : Saved (a.commit o) stored := answered
    exact afterCreate_follows now o stored creation e (by rw [saved]; rfl)

theorem confirmAbsent_follows (now : Time) (a : Allocation) (ob : Observation) (e : Option GoError)
    (live : a.phase.terminal = false) (absent : ob.absent e) :
    (c.confirmAbsent now a (absentCondition a.phase ob)).Follows (stepProtocol c) (.observed now a ob e false)
      fun _ _ => True := by
  unfold Controller.confirmAbsent
  refine .bind ((deregister_follows (.inr ⟨now, a, ob, e, rfl, rfl, absent⟩) rfl).mono ?_)
  intro result reached answered
  cases result with
  | some e => exact .done trivial
  | none =>
    obtain ⟨runners, rfl⟩ | rfl := answered rfl
    · exact save_follows (.observed (.release live absent (.inr runners)) live) rfl rfl
    · exact save_follows (.observed (.release live absent (.inl rfl)) live) rfl rfl

theorem rememberResources_follows (now : Time) (a : Allocation) (ob : Observation) (e : Option GoError)
    (live : a.phase.terminal = false) :
    (rememberResources a ob.resources).Follows (stepProtocol c) (.observed now a ob e false)
      fun result after => ∀ stored, result = .ok stored →
        after = .observed now stored ob e false ∧ Saved a stored := by
  unfold rememberResources
  split
  · exact .done fun _ failed => nomatch failed
  rename_i merged changed mergedEq
  split
  · refine .done fun stored same => ?_
    cases same
    exact ⟨rfl, rfl⟩
  · rename_i changes
    have changes : changed = true := by simpa using changes
    subst changes
    refine .call ⟨.observed (.remember merged mergedEq) live, a, rfl, rfl⟩ fun reply answered => ?_
    refine .done fun stored same => ?_
    subst same
    exact ⟨rfl, answered⟩

theorem undecided_follows {now : Time} {a : Allocation} {ob : Observation} {e : Option GoError}
    {cleared : Bool} (live : a.phase.terminal = false) (unknown : e.isSome = true ∨ ob.known = false)
    {condition cause report : String}
    (text : (condition ++ if e.isSome then errorText e else cause) = undecidedCondition a.phase e) :
    (Controller.undecided a e condition cause report).Follows (stepProtocol c)
      (.observed now a ob e cleared) fun _ _ => True := by
  unfold Controller.undecided
  rw [text]
  exact saveThen_follows (.observed (.undecided unknown) live) rfl rfl

theorem reconcile_follows (p : Provider) (now : Time) (a : Allocation) (phase : a.phase = .creating) :
    (Controller.reconcile p a).Follows (stepProtocol c) (.deciding now a false)
      fun result after => ∀ stored ob e, result = .ok (stored, ob, e) →
        after = .observed now stored ob e false ∧ Saved a stored := by
  unfold Controller.reconcile
  split
  · refine .request ⟨.fence phase, a, rfl, rfl⟩ fun reply answered => ?_
    cases reply with
    | error e => exact .done fun _ _ _ failed => nomatch failed
    | ok stored =>
      have saved : Saved a stored := answered
      have creating : stored.phase = .creating := by rw [saved]; exact phase
      have provider : a.offering.provider = stored.offering.provider := by rw [saved]
      have fenced : (stepProtocol c).next (.deciding now a false) (.save a a.revision) (.ok stored) =
          .deciding now stored false := by
        simp [stepProtocol, View.next, phase]
      rw [fenced]
      refine .request ⟨now, rfl, provider, creating⟩ fun reply _ => .done fun found ob e same => ?_
      cases same
      exact ⟨rfl, saved⟩
  · refine .request ⟨now, rfl, rfl, .inl phase⟩ fun reply _ => .done fun found ob e same => ?_
    cases same
    exact ⟨rfl, rfl⟩

theorem stepCreating_follows (p : Provider) (now : Time) (a : Allocation) (phase : a.phase = .creating) :
    (c.stepCreating p now (a.expired now) a).Follows (stepProtocol c) (.deciding now a false)
      fun _ _ => True := by
  unfold Controller.stepCreating
  refine .bind ((reconcile_follows p now a phase).mono fun result after reconciled => ?_)
  cases result with
  | error e => exact .done trivial
  | ok triple =>
    obtain ⟨stored, ob, e⟩ := triple
    obtain ⟨rfl, saved⟩ := reconciled stored ob e rfl
    have live : stored.phase.terminal = false := by rw [saved, phase]; rfl
    refine .bind ((rememberResources_follows now stored ob e live).mono fun result after remembered => ?_)
    cases result with
    | error e => exact .done trivial
    | ok latest =>
      obtain ⟨rfl, again⟩ := remembered latest rfl
      have creating : latest.phase = .creating := by rw [again, saved]; exact phase
      have expired : a.expired now = latest.expired now := by rw [again, saved]; rfl
      dsimp only
      split
      · rename_i unknown
        exact undecided_follows (by rw [creating]; rfl) (by simpa using unknown) (by rw [creating]; rfl)
      rename_i certain
      have certain : e = none ∧ ob.known = true := by cases e <;> simp_all
      split
      · rename_i absent
        have text : "CreateConfirmedAbsent" = absentCondition latest.phase ob := by rw [creating]; rfl
        rw [text]
        exact confirmAbsent_follows now latest ob e (by rw [creating]; rfl) ⟨certain.1, certain.2, by simpa using absent⟩
      · rename_i present
        rw [expired]
        exact save_follows
          (.observed (.found creating certain.1 certain.2 (by simpa using present)) (by rw [creating]; rfl)) rfl
          (by unfold Allocation.found Allocation.cleanUp; split <;> rfl)

theorem stepRunning_follows (now : Time) (a : Allocation) (phase : a.phase = .running) :
    (c.stepRunning now (a.expired now) a).Follows (stepProtocol c) (.deciding now a false)
      fun _ _ => True := by
  have live : a.phase.terminal = false := by rw [phase]; rfl
  unfold Controller.stepRunning
  split
  · rename_i overdue
    exact save_follows (.cleanUp phase overdue) rfl rfl
  rename_i due
  refine .request ⟨now, rfl, rfl, .inr (.inl ⟨phase, Bool.not_eq_true _ ▸ due⟩)⟩ fun reply _ => ?_
  obtain ⟨ob, e⟩ := reply
  dsimp only
  split
  · rename_i unknown
    exact undecided_follows live (by simpa using unknown) (by rw [phase]; rfl)
  rename_i certain
  have certain : e = none ∧ ob.known = true := by cases e <;> simp_all
  refine .bind ((rememberResources_follows now a ob e live).mono fun result after remembered => ?_)
  cases result with
  | error e => exact .done trivial
  | ok latest =>
    obtain ⟨rfl, saved⟩ := remembered latest rfl
    dsimp only
    split
    · rename_i absent
      have running : latest.phase = .running := by rw [saved]; exact phase
      have text : (if ob.interrupted then "ResourceAbsentConfirmedInterruption"
          else "ResourceAbsentInterruptionUnproven") = absentCondition latest.phase ob := by rw [running]; rfl
      rw [text]
      exact confirmAbsent_follows now latest ob e (by rw [running]; rfl) ⟨certain.1, certain.2, by simpa using absent⟩
    · exact .done trivial

theorem stepDeleting_follows (now : Time) (a : Allocation) (phase : a.phase = .deleting) :
    (c.stepDeleting now a).Follows (stepProtocol c) (.deciding now a false) fun _ _ => True := by
  have live : a.phase.terminal = false := by rw [phase]; rfl
  unfold Controller.stepDeleting
  refine .request ⟨now, rfl, rfl, .inr (.inr phase)⟩ fun reply _ => ?_
  obtain ⟨ob, e⟩ := reply
  dsimp only
  split
  · rename_i unknown
    exact undecided_follows live (by simpa using unknown) (by rw [phase]; rfl)
  rename_i certain
  have certain : e = none ∧ ob.known = true := by cases e <;> simp_all
  refine .bind ((rememberResources_follows now a ob e live).mono fun result after remembered => ?_)
  cases result with
  | error e => exact .done trivial
  | ok latest =>
    obtain ⟨rfl, saved⟩ := remembered latest rfl
    have deleting : latest.phase = .deleting := by rw [saved]; exact phase
    dsimp only
    split
    · rename_i absent
      have text : "CleanupConfirmed" = absentCondition latest.phase ob := by rw [deleting]; rfl
      rw [text]
      exact confirmAbsent_follows now latest ob e (by rw [deleting]; rfl) ⟨certain.1, certain.2, by simpa using absent⟩
    · rename_i present
      obtain ⟨rfl, known⟩ := certain
      refine .request ⟨now, ob, rfl, rfl, deleting, known, by simpa using present⟩ fun reply _ => ?_
      cases reply with
      | none => exact .done trivial
      | some err =>
        exact saveThen_follows (.observed (.unconfirmed deleting err) (by rw [deleting]; rfl)) rfl rfl

/-- Whatever it is answered, `Step` only ever asks for what its protocol allows. -/
theorem step_follows (id : String) :
    (c.step id).Follows (stepProtocol c) .start fun _ _ => True := by
  unfold Controller.step
  refine .request rfl fun reply _ => ?_
  cases reply with
  | error e => exact .done trivial
  | ok a =>
    refine .request ⟨a, rfl⟩ fun now _ => ?_
    change (c.stepLoaded now a).Follows (stepProtocol c) (.deciding now a false) _
    unfold Controller.stepLoaded
    dsimp only
    split
    · exact .done trivial
    split
    · exact .done trivial
    split
    · rename_i phase
      exact stepPending_follows now a phase
    split
    · exact .done trivial
    split
    · rename_i phase
      exact stepCreating_follows _ now a phase
    · rename_i phase
      exact stepRunning_follows now a phase
    · rename_i phase
      exact stepDeleting_follows now a phase
    · exact .done trivial

end Follows

end RunnerScout.Lifecycle
