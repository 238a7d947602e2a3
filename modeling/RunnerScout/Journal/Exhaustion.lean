import RunnerScout.Journal.Monotone

/-! # On-demand only after spot is exhausted

An outcome is written down in one place only, after a create call for that very
offering was answered with a capacity rejection and an empty receipt.  Cooldowns
are laid over the outcomes for the choice, never written into them.  So when an
on-demand offering is committed, every eligible spot offering of the catalog was
tried by this allocation and rejected.
-/

namespace RunnerScout.Journal

open Interaction Lifecycle Placement Operator

variable {log : Log} {thread : Nat} {before after first record : Allocation} {o : Offering}

/-! ## What a save does about the placement -/

inductive Places (log : Log) (thread : Nat) (before after : Allocation) : Prop where
  | kept (outcomes : after.outcomes = before.outcomes) (offering : after.offering = before.offering)
      (phase : after.phase = .creating → before.phase = .creating)
  | committed {c : Controller} {now : Time} (shown : lastShown thread log = some now)
      (pending : before.phase = .pending) (waits : before.givesUp now = false)
      (chosen : choose now before.requirements before.catalog (c.outcomes now before) = .ok after.offering)
      (outcomes : after.outcomes = before.outcomes)
  | rejected {creation : Creation} {e : Option GoError} (creating : before.phase = .creating)
      (pending : after.phase = .pending) (answered : .created thread before creation e ∈ log)
      (capacity : errorIs e .capacity = true) (empty : creation.empty = true)
      (outcomes : after.outcomes = before.outcomes.insert before.offering.id .capacityRejected)
      (offering : after.offering = before.offering)

theorem writes_places {c : Controller} {view : View} {a x : Allocation} (writes : view.writes c x)
    (held : view.held = some a) (backed : Backed log thread view) :
    Places log thread a x := by
  cases writes with
  | pending phase retains write =>
    cases held
    cases write with
    | timeOut givesUp deregistered => exact .kept rfl rfl fun creating => by cases creating
    | refused waits e refused => exact .kept rfl rfl id
    | commit waits o chosen => exact .committed backed phase waits chosen rfl
  | fence phase =>
    cases held
    exact .kept rfl rfl id
  | cleanUp phase overdue =>
    cases held
    exact .kept rfl rfl fun creating => by cases creating
  | created write =>
    cases held
    obtain ⟨_, creating, rfl, answered⟩ := backed
    cases write with
    | preparationFailed rejected empty => exact .kept rfl rfl fun creating => by cases creating
    | capacityRejected rejected empty => exact .rejected creating rfl answered rejected empty rfl rfl
    | unmerged ambiguous err failed => exact .kept rfl rfl id
    | uncertain ambiguous unknown resources changed merged => exact .kept rfl rfl id
    | vmCreated named succeeded resources changed merged => exact .kept rfl rfl fun creating => by cases creating
  | observed write =>
    cases held
    cases write with
    | remember resources merged => exact .kept rfl rfl id
    | undecided unknown => exact .kept rfl rfl id
    | release live absent deregistered => exact .kept rfl rfl fun creating => by cases creating
    | found creating succeeded known present =>
      unfold Allocation.found Allocation.cleanUp
      dsimp only
      split <;> exact .kept rfl rfl fun _ => creating
    | unconfirmed deleting err => exact .kept rfl rfl id

theorem Places.saved {a x stored : Allocation} (places : Places log thread a x) (saved : Saved x stored) :
    Places log thread a stored := by
  have outcomes : stored.outcomes = x.outcomes := by rw [saved]
  have offering : stored.offering = x.offering := by rw [saved]
  have phase : stored.phase = x.phase := by rw [saved]
  cases places with
  | kept same kept entered => exact .kept (outcomes.trans same) (offering.trans kept) (phase ▸ entered)
  | committed shown pending waits chosen same =>
    exact .committed shown pending waits (offering ▸ chosen) (outcomes.trans same)
  | rejected creating pending answered capacity empty same kept =>
    exact .rejected creating (phase.trans pending) answered capacity empty (outcomes.trans same) (offering.trans kept)

theorem Justified.places (reason : Justified log thread before after) : Places log thread before after := by
  cases reason with
  | step writes held backed stores => exact (writes_places writes held backed).saved stores.saved
  | @edited x edit stores =>
    have kept : Places log thread before x := by
      rw [edit.touched]
      exact .kept rfl rfl id
    exact kept.saved stores.saved
  | @processed x processed stores =>
    have kept : Places log thread before x := by
      cases processed <;> exact .kept rfl rfl id
    exact kept.saved stores.saved

/-! ## What the outcomes stand for -/

/-- A create call for this offering was answered with a capacity rejection and an
    empty receipt. -/
def Rejected (log : Log) (id : String) (o : Offering) : Prop :=
  ∃ thread a creation e, .created thread a creation e ∈ log ∧ a.id = id ∧ a.offering = o ∧
    errorIs e .capacity = true ∧ creation.empty = true

theorem Rejected.mono {later : Log} {id : String} (rejected : Rejected log id o) (grows : log ⊆ later) :
    Rejected later id o := by
  obtain ⟨thread, a, creation, e, answered, rest⟩ := rejected
  exact ⟨thread, a, creation, e, grows answered, rest⟩

structure Outcomes (first : Allocation) (log : Log) (record : Allocation) : Prop where
  /-- Every outcome of the record is the rejection of an offering of its catalog. -/
  rejected : ∀ pool outcome, record.outcomes.lookup pool = some outcome →
    outcome = .capacityRejected ∧ ∃ o ∈ first.catalog.offerings, o.id = pool ∧ Rejected log first.id o
  offering : record.phase = .creating → record.offering ∈ first.catalog.offerings
  /-- No outcome is ever lost. -/
  lasting : ∀ a ∈ stored first log, ∀ pool, a.outcomes.lookup pool ≠ none → record.outcomes.lookup pool ≠ none

theorem Outcomes.mono {event : Event} (outcomes : Outcomes first log record)
    (same : stored first (event :: log) = stored first log) : Outcomes first (event :: log) record where
  rejected := fun pool outcome found => by
    obtain ⟨rejection, o, listed, named, rejected⟩ := outcomes.rejected pool outcome found
    exact ⟨rejection, o, listed, named, rejected.mono (List.subset_cons_self _ _)⟩
  offering := outcomes.offering
  lasting := by rw [same]; exact outcomes.lasting

theorem Places.outcomes (places : Places log thread before after) (progress : Progress first before)
    (known : Outcomes first log before) : Outcomes first (.saved thread before after :: log) after := by
  have catalog : before.catalog = first.catalog := progress.admitted.2.2.2.1
  have later : log ⊆ .saved thread before after :: log := List.subset_cons_self _ _
  -- what the record before knew is still known
  have rejected (pool : String) (outcome : Outcome) (found : before.outcomes.lookup pool = some outcome) :
      outcome = .capacityRejected ∧
        ∃ o ∈ first.catalog.offerings, o.id = pool ∧ Rejected (.saved thread before after :: log) first.id o := by
    obtain ⟨rejection, o, listed, named, rejected⟩ := known.rejected pool outcome found
    exact ⟨rejection, o, listed, named, rejected.mono later⟩
  have lasting (grows : ∀ pool, before.outcomes.lookup pool ≠ none → after.outcomes.lookup pool ≠ none) :
      ∀ a ∈ stored first (.saved thread before after :: log), ∀ pool,
        a.outcomes.lookup pool ≠ none → after.outcomes.lookup pool ≠ none := by
    intro a member pool tried
    obtain rfl | old := List.mem_cons.mp member
    · exact tried
    · exact grows pool (known.lasting a old pool tried)
  cases places with
  | kept same offering phase =>
    refine ⟨by rw [same]; exact rejected, fun creating => ?_, lasting fun pool => by rw [same]; exact id⟩
    rw [offering]
    exact known.offering (phase creating)
  | committed shown pending waits chosen same =>
    refine ⟨by rw [same]; exact rejected, fun _ => ?_, lasting fun pool => by rw [same]; exact id⟩
    rw [← catalog]
    exact (choose_chosen chosen).listed
  | rejected creating pending answered capacity empty same offering =>
    refine ⟨fun pool outcome found => ?_, fun again => ?_, lasting fun pool tried => ?_⟩
    · rw [same] at found
      by_cases here : pool = before.offering.id
      · subst here
        rw [AList.lookup_insert] at found
        cases found
        exact ⟨rfl, before.offering, known.offering creating, rfl, thread, before, _, _, later answered,
          progress.admitted.1, rfl, capacity, empty⟩
      · rw [AList.lookup_insert_ne here] at found
        exact rejected pool outcome found
    · rw [pending] at again
      cases again
    · rw [same]
      by_cases here : pool = before.offering.id
      · subst here
        rw [AList.lookup_insert]
        exact Option.some_ne_none _
      · rw [AList.lookup_insert_ne here]
        exact tried

theorem Kept.outcomes (fresh : Stamped first) (untried : first.outcomes = ∅) (pending : first.phase = .pending)
    (kept : Kept first log record) :
    Outcomes first log record := by
  induction kept with
  | opened =>
    refine ⟨fun pool outcome found => ?_, fun creating => ?_, fun a member => ?_⟩
    · rw [untried] at found
      cases found
    · rw [pending] at creating
      cases creating
    · rw [List.mem_singleton.mp member]
      exact fun _ => id
  | shown kept thread now genuine ih => exact ih.mono rfl
  | created kept thread a creation e ih => exact ih.mono rfl
  | observed kept thread a ob e ih => exact ih.mono rfl
  | saved kept thread reason ih =>
    have forward := kept.forward fresh
    exact reason.places.outcomes (stored_progress forward.latest forward.progress first (first_mem_stored first _)) ih

/-! ## Whole runs -/

theorem Kept.split {recent earlier : Log} (kept : Kept first (recent ++ .saved thread before after :: earlier) record) :
    Kept first earlier before ∧ Justified earlier thread before after := by
  induction recent generalizing record with
  | nil =>
    cases kept with
    | saved kept _ reason => exact ⟨kept, reason⟩
  | cons event recent ih =>
    cases kept with
    | shown kept | created kept | observed kept | saved kept => exact ih kept

theorem not_stale {now : Time} (fresh : invalidOrStale now o = false) :
    o.observedAt ≤ now ∧ now - o.observedAt ≤ maxPriceAge := by
  simp only [invalidOrStale, Bool.or_eq_false_iff, decide_eq_false_iff_not, Int.not_lt] at fresh
  exact ⟨fresh.1.2, fresh.2⟩

theorem eq_of_id_eq {offerings : List Offering} (distinct : (offerings.map Offering.id).Nodup) {x : Offering}
    (listed : o ∈ offerings) (other : x ∈ offerings) (same : o.id = x.id) : o = x :=
  List.inj_on_of_nodup_map distinct listed other same

/-- On-demand only after spot is exhausted.  Whenever a creation is committed, its
    offering meets every requirement at a price observed in the five minutes before;
    when it is on demand, that was allowed, the catalog is complete, and every eligible
    spot offering of it was tried and rejected; and no rejection stored before was for
    this offering. -/
theorem onDemand_after_exhaustion {id : String} {first : Allocation}
    {system : System Calls (Cell Log) (Option GoError)} (admitted : Admitted first) (run : Run id first system)
    {recent earlier : Log} {thread : Nat} {before after : Allocation}
    (logged : system.world.ghost = recent ++ .saved thread before after :: earlier)
    (pending : before.phase = .pending) (creating : after.phase = .creating) :
    (∃ now, lastShown thread earlier = some now ∧ after.offering.observedAt ≤ now ∧
      now - after.offering.observedAt ≤ maxPriceAge) ∧
    after.offering ∈ first.catalog.offerings ∧ eligible after.offering first.requirements = true ∧
    (after.offering.spot = false → first.requirements.allowOnDemand = true ∧
      (∀ p ∈ first.requirements.providers, (first.catalog.complete.lookup p).getD false = true) ∧
      ∀ x ∈ first.catalog.offerings, x.spot = true → eligible x first.requirements = true →
        Rejected earlier first.id x) ∧
    ∀ a ∈ stored first earlier, ∀ x : Offering, a.outcomes.lookup x.id = some .capacityRejected →
      after.offering.id ≠ x.id := by
  have kept := run_kept run
  rw [logged] at kept
  obtain ⟨kept, reason⟩ := kept.split
  have forward := kept.forward admitted.stamped
  have progress := stored_progress forward.latest forward.progress first (first_mem_stored first earlier)
  have known : Outcomes first earlier before := by
    have ⟨o, now, catalog, address, retire, revision, same⟩ := admitted
    exact kept.outcomes admitted.stamped (by rw [same]; rfl) (by rw [same]; rfl)
  obtain ⟨_, _, _, catalog, requirements, _, _⟩ := progress.admitted
  cases reason.places with
  | kept outcomes offering phase =>
    have still := phase creating
    rw [pending] at still
    cases still
  | rejected was => rw [pending] at was; cases was
  | @committed c now shown _ waits chosen outcomes =>
    have choice := choose_chosen chosen
    rw [catalog, requirements] at choice
    refine ⟨⟨now, shown, not_stale choice.fresh⟩, choice.listed, choice.suits, fun onDemand => ?_, ?_⟩
    · obtain ⟨allowed, exhausted⟩ := choice.exhausted onDemand
      refine ⟨allowed, choice.complete, fun x listed isSpot suits => ?_⟩
      obtain ⟨_, o, known, named, rejected⟩ :=
        known.rejected x.id _ (Controller.outcomes_rejected (exhausted x listed isSpot suits))
      exact eq_of_id_eq choice.distinct known listed named ▸ rejected
    · rintro a member x rejected same
      refine known.lasting a member x.id (by rw [rejected]; exact Option.some_ne_none _) ?_
      rw [← same]
      exact Controller.outcomes_none choice.untried

/-! Two pools: the spot one is tried first and rejected, then the other one is committed. -/

def onDemandPool : Offering := { smallPool with id := "aws-b", spot := false, priceMicros := 60000 }

def twoPools : Allocation :=
  { smallRecord with
    catalog := { smallRecord.catalog with offerings := [onDemandPool, smallPool] }
    requirements := { smallRecord.requirements with allowOnDemand := true } }

/-- A provider without spot capacity. -/
def spotless : TracesOracle Log :=
  { steadyProvider with
    create := fun thread a log =>
      let creation : Creation := { resourceID := if a.offering.spot then "" else "i-1" }
      let e := if a.offering.spot then some errCapacity else none
      ((creation, e), .created thread a creation e :: log) }

theorem spotless_honest : spotless.Honest traces :=
  { steadyProvider_honest with
    create := fun _ _ _ => rfl
    named := fun _ _ _ => rfl }

def secondChoice : System Calls (Cell Log) (Option GoError) where
  world := System.playAll (tracesOracle spotless traces.save)
    [(0, 10, smallController.step "runner-1"), (1, 10, smallController.step "runner-1")] ⟨twoPools, []⟩
  threads := fun _ => none

theorem secondChoice_run : Run "runner-1" twoPools secondChoice := by
  refine System.Reachable.playAll (fun _ => tracesOracle_honest spotless_honest) _ ?_ (.initial _ rfl)
  intro turn member
  simp only [List.mem_cons, List.not_mem_nil, or_false] at member
  obtain rfl | rfl := member <;> exact .step smallController

theorem twoPools_admitted : Admitted twoPools :=
  ⟨{ config := { name := "scale-set", provisioningSeconds := 600, requirements := twoPools.requirements } }, 0,
    twoPools.catalog, "", false, 1, rfl⟩

/-- The phases of a save, and the offering it leaves behind. -/
def Event.placed : Event → Option (Phase × Phase × Offering)
  | .saved _ before after => some (before.phase, after.phase, after.offering)
  | _ => none

theorem Event.placed_eq {event : Event} {source target : Phase} (placed : event.placed = some (source, target, o)) :
    ∃ thread before after, event = .saved thread before after ∧ before.phase = source ∧ after.phase = target ∧
      after.offering = o := by
  cases event with
  | saved thread before after =>
    cases placed
    exact ⟨thread, before, after, rfl, rfl, rfl, rfl⟩
  | shown | created | observed => cases placed

theorem onDemand_after_exhaustion_secondChoice :
    ∃ recent thread before after earlier, secondChoice.world.ghost = recent ++ .saved thread before after :: earlier ∧
      after.offering = onDemandPool ∧ Rejected earlier "runner-1" smallPool := by
  have third : secondChoice.world.ghost[2]?.bind Event.placed = some (.pending, .creating, onDemandPool) := by
    decide +kernel
  obtain ⟨event, found, placed⟩ := Option.bind_eq_some_iff.mp third
  obtain ⟨thread, before, after, rfl, pending, creating, chosen⟩ := Event.placed_eq placed
  obtain ⟨inside, here⟩ := List.getElem?_eq_some_iff.mp found
  have logged : secondChoice.world.ghost =
      secondChoice.world.ghost.take 2 ++ .saved thread before after :: secondChoice.world.ghost.drop 3 := by
    rw [← here, List.getElem_cons_drop, List.take_append_drop]
  obtain ⟨_, _, _, exhausted, _⟩ :=
    onDemand_after_exhaustion twoPools_admitted secondChoice_run logged pending creating
  refine ⟨_, thread, before, after, _, logged, chosen, ?_⟩
  exact (exhausted (by rw [chosen]; rfl)).2.2 smallPool (by decide) rfl (by decide)

end RunnerScout.Journal
