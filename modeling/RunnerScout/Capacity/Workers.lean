import RunnerScout.Capacity.Shared
import RunnerScout.State.Cycle

/-! # Goroutines

The programs that only ever add to the books, each safe next to any number of
others: reading the clock, drawing a name, loading and saving a record, and on top
of them `Step`, the job handlers, the retirement of overdue allocations and the
whole fan-out of `Tick`.
-/

namespace RunnerScout.Capacity

open Interaction Program Lifecycle Operator State

variable {a held x : Allocation}

section Requests

variable {s : Setting} {J : Cluster → Prop} {thread : Nat} {pre : Cluster → Prop}

/-- A request that makes one move by which the books grow. -/
theorem grow_triple (preserved : Preserved s J) {request : ApiRequest} {post : ApiReply request → Cluster → Prop}
    (stable : (s.workers J).Stable thread pre)
    (executes : ∀ w reply after, s.Invariant J w → pre w → s.rules.semantics thread w request reply after →
      Act s thread w after ∧ Grows s (s.books w) (s.books after) ∧ (pre after → s.Invariant J after → post reply after)) :
    s.WorkerTriple J thread pre (ask (S := Api) request) post := by
  refine .request stable fun w reply after kept holds executed => ?_
  obtain ⟨act, grows, reached⟩ := executes w reply after kept holds executed
  obtain ⟨invariant, others⟩ := act.keepsWorkers preserved kept grows
  exact ⟨invariant, others, reached (stable w after invariant (others thread trivial) holds) invariant⟩

theorem now_triple (preserved : Preserved s J) (stable : (s.workers J).Stable thread pre) :
    s.WorkerTriple J thread pre (ask (S := Api) .now)
      fun t w => s.Invariant J w ∧ pre w ∧ w.clock = t ∧ s.Shown t := by
  refine grow_triple preserved stable fun w t after kept holds executed => ?_
  obtain ⟨shown, rfl⟩ := executed
  exact ⟨act_clock shown, grows_clock shown, fun still invariant => ⟨invariant, still, rfl, w.clock, shown⟩⟩

/-- A name drawn is none of the names known to be drawn before. -/
theorem newUUID_triple (preserved : Preserved s J) (stable : (s.workers J).Stable thread pre) (known : String → Prop)
    (drawn : ∀ w, pre w → ∀ id, known id → id ∈ w.drawn) :
    s.WorkerTriple J thread pre (ask (S := Api) .newUUID)
      fun uuid w => s.Invariant J w ∧ pre w ∧ allocationName uuid ∈ w.drawn ∧ ¬ known (allocationName uuid) := by
  refine grow_triple preserved stable fun w uuid after kept holds executed => ?_
  obtain ⟨unused, notFleet, rfl⟩ := executed
  exact ⟨act_draw unused notFleet, grows_draw, fun still invariant =>
    ⟨invariant, still, List.mem_cons_self, fun before => unused (drawn w holds _ before)⟩⟩

/-- A call that leaves the cluster alone. -/
theorem outside_triple {request : ApiRequest} (stable : (s.workers J).Stable thread pre)
    (outside : ∀ w reply after, s.rules.semantics thread w request reply after → after = w) :
    s.WorkerTriple J thread pre (ask (S := Api) request)
      fun _ w => s.Invariant J w ∧ pre w :=
  (triple_read stable outside).mono fun _ _ ⟨kept, holds, _⟩ => ⟨kept, holds⟩

/-- The record a program holds, to be saved at its revision. -/
structure Holding (s : Setting) (a : Allocation) (w : Cluster) : Prop where
  seen : RecordSeen a w
  created : a.id ∈ (s.books w).fleet.created
  rejected : ∀ pool t, a.rejectedAt.lookup pool = some t → s.Later t w.clock

theorem Holding.of_record {w : Cluster} (kept : s.Invariant J w) {id : String} (found : w.record id = some a) :
    Holding s a w := by
  refine ⟨.of_record kept.wellFormed found, ?_, fun pool t cooled => (kept.sound.rejected id a pool t found cooled).2⟩
  have named := kept.wellFormed.record_id found
  refine kept.sound.recordCreated a.id ?_
  rw [named, show (s.books w).record id = some a from found]
  exact Option.some_ne_none _

theorem holding_stable (a : Allocation) : (s.workers J).Stable thread (Holding s a) :=
  fun _ _ _ relied holding => ⟨holding.seen.evolves relied.1, relied.2.mem_created holding.created,
    fun pool t cooled => (holding.rejected pool t cooled).trans relied.2.clock⟩

/-- Saving over the record held. -/
theorem save_advances (preserved : Preserved s J) {store : Kubernetes} (own : store.owner = s.name)
    (stable : (s.workers J).Stable thread pre) (named : x.id = held.id)
    (advances : ∀ stored, Saved x stored → Advances held stored) (holding : ∀ w, pre w → Holding s held w ∧
      (x.terminalAt = held.terminalAt ∨ Dated s (s.books w) held.id x.terminalAt) ∧
      Rejects s (s.books w) held.id held x) :
    s.WorkerTriple J thread pre (store.save x held.revision)
      fun reply w => s.Invariant J w ∧ pre w ∧ ∀ stored, reply = .ok stored → Saved x stored ∧ Holding s stored w := by
  by_cases present : held.revision = 0
  · exact fun w holds => absurd present (holding w holds).1.seen.1
  refine save_triple workers_respects own present stable ?_ ?_
  · exact fun e w kept holds => ⟨kept, holds, fun stored same => by cases same⟩
  · intro w stored after kept holds saved
    obtain ⟨⟨seen, created, _⟩, dated, rejects⟩ := holding w holds
    have content : Saved x stored := by
      obtain ⟨_, _, stores, _⟩ := saved
      exact stores.saved
    have terminalAt : stored.terminalAt = x.terminalAt := by rw [content]
    rw [← terminalAt] at dated
    have rejects : Rejects s (s.books w) held.id held stored := by
      rw [content]
      exact ⟨rejects.dated, rejects.final, rejects.ended⟩
    obtain ⟨act, grows⟩ := act_saved kept.wellFormed saved seen named rfl (advances stored content) dated rejects
    obtain ⟨invariant, others⟩ := act.keepsWorkers preserved kept grows
    have still := stable w after invariant (others thread trivial) holds
    refine ⟨⟨invariant, others⟩, ⟨invariant, still, fun other same => ?_⟩,
      fun e => ⟨invariant, still, fun _ same => by cases same⟩⟩
    cases same
    have found : after.record stored.id = some stored := by
      obtain ⟨_, _, _, _, canonical, rfl⟩ := saved
      rw [putRecord_record canonical, Function.update_self]
    exact ⟨content, .of_record invariant found⟩

end Requests

/-! ## `Step` -/

/-- The instant a view decides on. -/
def instant : View → Option Time
  | .start | .loaded _ | .closed => none
  | .deciding now _ _ | .committed now _ _ | .created now _ _ _ _ | .observed now _ _ _ _ => some now

/-- A record between its commitment to an offering and the end of its create call. -/
def committing : View → Prop
  | .committed _ o a | .created _ o a _ _ => a.phase = .creating ∧ a.outcomes.lookup o.id = none
  | _ => True

/-- A rejection is remembered next to those before it: an offering is committed to only
    where it has no outcome. -/
theorem remembers_capacityRejected {pool : String} {now : Time} (untried : a.outcomes.lookup pool = none) :
    Remembers a (a.capacityRejected pool now) := by
  refine ⟨fun other tried => ?_, fun other t found tried => ?_⟩
  all_goals
    have different : other ≠ pool := by
      rintro rfl
      exact tried untried
    rw [Allocation.capacityRejected, AList.lookup_insert_ne different]
  · exact tried
  · exact found

/-- Whatever `Step` saves is the record it holds, further along. -/
theorem writes_advances {c : Controller} {view : View} (writes : view.writes c x) (holds : view.held = some held)
    (commits : committing view) :
    x.id = held.id ∧ Advances held x ∧
      (x.terminalAt = held.terminalAt ∨ ∃ now, instant view = some now ∧ x.terminalAt = now) := by
  cases writes with
  | pending phase retains write =>
    cases holds
    have live : held.phase.terminal = true → False := by rw [phase]; exact Bool.noConfusion
    cases write with
    | timeOut =>
      exact ⟨rfl, ⟨rfl, rfl, fun terminal => (live terminal).elim, .inl rfl, rfl, rfl, .same rfl rfl⟩,
        .inr ⟨_, rfl, rfl⟩⟩
    | refused =>
      exact ⟨rfl, ⟨rfl, rfl, fun terminal => (live terminal).elim, .inl rfl, rfl, rfl, .same rfl rfl⟩, .inl rfl⟩
    | commit waits o chosen =>
      have price := Placement.eligible_price (Placement.choose_chosen chosen).suits
      exact ⟨rfl, ⟨rfl, rfl, fun terminal => (live terminal).elim, .inr price, rfl, rfl, .same rfl rfl⟩, .inl rfl⟩
  | fence phase =>
    cases holds
    exact ⟨rfl, .refl _, .inl rfl⟩
  | cleanUp phase overdue =>
    cases holds
    have live : held.phase.terminal = true → False := by rw [phase]; exact Bool.noConfusion
    exact ⟨rfl, ⟨rfl, rfl, fun terminal => (live terminal).elim, .inl rfl, rfl, rfl, .same rfl rfl⟩, .inl rfl⟩
  | created write =>
    cases holds
    obtain ⟨creating, untried⟩ : held.phase = .creating ∧ _ := commits
    have live : held.phase.terminal = true → False := by rw [creating]; exact Bool.noConfusion
    cases write with
    | capacityRejected rejected empty =>
      exact ⟨rfl, ⟨rfl, rfl, fun terminal => (live terminal).elim, .inl rfl, rfl, rfl,
        remembers_capacityRejected untried⟩, .inl rfl⟩
    | preparationFailed | unmerged | uncertain | vmCreated =>
      exact ⟨rfl, ⟨rfl, rfl, fun terminal => (live terminal).elim, .inl rfl, rfl, rfl, .same rfl rfl⟩, .inl rfl⟩
  | observed write =>
    cases holds
    cases write with
    | remember | undecided | unconfirmed =>
      exact ⟨rfl, ⟨rfl, rfl, fun _ => ⟨rfl, rfl⟩, .inl rfl, rfl, rfl, .same rfl rfl⟩, .inl rfl⟩
    | release live absent deregistered =>
      refine ⟨rfl, ⟨rfl, rfl, fun terminal => ?_, .inl rfl, rfl, rfl, .same rfl rfl⟩, .inr ⟨_, rfl, rfl⟩⟩
      rw [live] at terminal
      cases terminal
    | found creating succeeded known present =>
      have live : held.phase.terminal = true → False := by rw [creating]; exact Bool.noConfusion
      unfold Allocation.found
      dsimp only
      split <;>
        exact ⟨rfl, ⟨rfl, rfl, fun terminal => (live terminal).elim, .inl rfl, rfl, rfl, .same rfl rfl⟩, .inl rfl⟩

/-- The only rejection `Step` adds is that of its own create call, at the instant it decided on. -/
theorem writes_rejectedAt {c : Controller} {view : View} (writes : view.writes c x) (holds : view.held = some held)
    {pool : String} {t : Time} (found : x.rejectedAt.lookup pool = some t) :
    held.rejectedAt.lookup pool = some t ∨ (x.outcomes.lookup pool ≠ none ∧ instant view = some t) := by
  cases writes with
  | pending phase retains write =>
    cases holds
    cases write <;> exact .inl found
  | fence | cleanUp =>
    cases holds
    exact .inl found
  | @created now o a creation e x write =>
    cases holds
    cases write with
    | capacityRejected rejected empty =>
      by_cases same : pool = o.id
      · subst same
        rw [Allocation.capacityRejected, AList.lookup_insert] at found
        refine .inr ⟨?_, found⟩
        rw [Allocation.capacityRejected, AList.lookup_insert]
        exact Option.some_ne_none _
      · rw [Allocation.capacityRejected, AList.lookup_insert_ne same] at found
        exact .inl found
    | preparationFailed | unmerged | uncertain | vmCreated => exact .inl found
  | observed write =>
    cases holds
    cases write with
    | found creating succeeded known present =>
      unfold Allocation.found at found
      dsimp only at found
      split at found <;> exact .inl found
    | remember | undecided | release | unconfirmed => exact .inl found

/-- `Step` saves nothing over a record that has ended, and ends one at the instant it decided on. -/
theorem writes_ends {c : Controller} {view : View} (writes : view.writes c x) (holds : view.held = some held) :
    held.phase.terminal = false ∧ (x.phase.terminal = true →
      instant view = some x.terminalAt ∧ x.rejectedAt = held.rejectedAt) := by
  cases writes with
  | pending phase retains write =>
    cases holds
    refine ⟨by rw [phase]; rfl, fun terminal => ?_⟩
    cases write with
    | timeOut => exact ⟨rfl, rfl⟩
    | refused =>
      rw [show held.phase = .pending from phase] at terminal
      cases terminal
    | commit => cases terminal
  | fence phase =>
    cases holds
    refine ⟨by rw [phase]; rfl, fun terminal => ?_⟩
    rw [phase] at terminal
    cases terminal
  | cleanUp phase overdue =>
    cases holds
    exact ⟨by rw [phase]; rfl, fun terminal => by cases terminal⟩
  | created write live =>
    cases holds
    refine ⟨live, fun terminal => ?_⟩
    cases write with
    | preparationFailed | capacityRejected | vmCreated => cases terminal
    | unmerged | uncertain => cases live.symm.trans terminal
  | observed write live =>
    cases holds
    refine ⟨live, fun terminal => ?_⟩
    cases write with
    | release => exact ⟨rfl, rfl⟩
    | found creating succeeded known present =>
      unfold Allocation.found Allocation.cleanUp at terminal
      dsimp only at terminal
      split at terminal <;> cases terminal
    | remember | undecided | unconfirmed => cases live.symm.trans terminal

/-- A record is committed to an offering it has no outcome for. -/
theorem writes_untried {c : Controller} {now : Time} {cleared : Bool}
    (writes : (View.deciding now a cleared).writes c x) (pending : a.phase = .pending)
    (creating : x.phase = .creating) :
    x.outcomes.lookup x.offering.id = none := by
  cases writes with
  | pending phase retains write =>
    cases write with
    | timeOut => cases creating
    | refused => cases pending.symm.trans creating
    | commit waits o chosen => exact Controller.outcomes_none (Placement.choose_chosen chosen).untried
  | fence phase => cases pending.symm.trans phase
  | cleanUp phase overdue => cases creating

theorem Advances.saved {stored : Allocation} (advances : Advances held x) (saved : Saved x stored) :
    Advances held stored := by
  rw [saved]
  exact ⟨advances.named, advances.requirements, advances.final, advances.offering, advances.profile,
    advances.overlay, advances.remembers.outcomes, advances.remembers.rejectedAt⟩

/-- What a running `Step` knows of the cluster. -/
def knows (s : Setting) (view : View) (w : Cluster) : Prop :=
  committing view ∧ ∀ a, view.held = some a →
    Holding s a w ∧ ∀ now, instant view = some now → Dated s (s.books w) a.id now ∧
      ∀ pool t, a.rejectedAt.lookup pool = some t → s.Later t now

section Step

variable {s : Setting} {J : Cluster → Prop} {thread : Nat} {o : Operator}

theorem knows_stable (view : View) : (s.workers J).Stable thread (knows s view) := by
  rintro before after kept relied ⟨commits, knowing⟩
  refine ⟨commits, fun a held => ?_⟩
  obtain ⟨holding, dated⟩ := knowing a held
  exact ⟨holding_stable a before after kept relied holding, fun now same =>
    ⟨(dated now same).1.grows relied.2, (dated now same).2⟩⟩

/-- A view after a call that wrote nothing: it holds the same record and knows the same instant. -/
theorem knows_next {view next : View} {w : Cluster} (knowing : knows s view w) (commits : committing next)
    (held : next.held = none ∨ (next.held = view.held ∧ instant next = instant view)) : knows s next w := by
  refine ⟨commits, fun a same => ?_⟩
  obtain none | ⟨sameHeld, sameInstant⟩ := held
  · rw [none] at same
    cases same
  · rw [sameHeld] at same
    rw [sameInstant]
    exact knowing.2 a same

theorem stepCall_save (preserved : Preserved s J) (own : o.config.name = s.name) {c : Controller} {view : View}
    {interruptions : GoMap String Bool} {revision : Revision} (allowed : view.allowed c (.save x revision)) :
    s.WorkerTriple J thread (knows s view) (o.stepCall interruptions (.save x revision))
      fun reply w => View.answers (.save x revision) reply ∧ knows s (view.next (.save x revision) reply) w := by
  obtain ⟨writes, held, holds, rfl⟩ := allowed
  refine .given (fun w knowing => knowing.1) fun commits => ?_
  obtain ⟨named, advances, dated⟩ := writes_advances writes holds commits
  refine (save_advances preserved own (knows_stable view) named (fun stored saved => advances.saved saved)
    (fun w knowing => ⟨(knowing.2 held holds).1, ?_⟩)).mono fun reply w ⟨_, knowing, stores⟩ => ?_
  · have known := (knowing.2 held holds).2
    obtain ⟨live, ends⟩ := writes_ends writes holds
    refine ⟨?_, fun pool t found => ?_, fun terminal => ?_, fun _ terminal pool t found => ?_⟩
    · obtain same | ⟨now, reads, same⟩ := dated
      · exact .inl same
      · exact .inr (same ▸ (known now reads).1)
    · obtain old | ⟨tried, reads⟩ := writes_rejectedAt writes holds found
      · exact .inl old
      · exact .inr ⟨tried, (known t reads).1⟩
    · cases live.symm.trans terminal
    · obtain ⟨reads, same⟩ := ends terminal
      exact (known _ reads).2 pool t (same ▸ found)
  · cases reply with
    | error e =>
      refine ⟨trivial, ?_⟩
      cases view <;> exact ⟨trivial, fun a same => by cases same⟩
    | ok stored =>
      obtain ⟨saved, holding⟩ := stores stored rfl
      have same : stored.id = held.id := by rw [saved]; exact named
      refine ⟨saved, ?_⟩
      have instants (now : Time) (reads : instant view = some now) : Dated s (s.books w) stored.id now ∧
          ∀ pool t, stored.rejectedAt.lookup pool = some t → s.Later t now := by
        obtain ⟨dated, past⟩ := (knowing.2 held holds).2 now reads
        refine ⟨same ▸ dated, fun pool t found => ?_⟩
        rw [saved] at found
        obtain old | ⟨_, again⟩ := writes_rejectedAt writes holds found
        · exact past pool t old
        · rw [reads] at again
          cases again
          exact .refl
      cases view with
      | start => cases holds
      | closed => cases holds
      | loaded a => exact ⟨trivial, fun a same => by cases same⟩
      | committed now offering a => exact ⟨trivial, fun a same => by cases same⟩
      | created now offering a creation e => exact ⟨trivial, fun a same => by cases same⟩
      | deciding now a cleared =>
        simp only [View.next]
        split
        · rename_i committed
          refine ⟨⟨?_, ?_⟩, fun b sameRecord => ?_⟩
          · rw [saved]
            exact committed.2
          · rw [saved]
            exact writes_untried writes committed.1 committed.2
          · cases sameRecord
            exact ⟨holding, instants⟩
        · refine ⟨trivial, fun b sameRecord => ?_⟩
          cases sameRecord
          exact ⟨holding, instants⟩
      | observed now a ob e cleared =>
        refine ⟨trivial, fun b sameRecord => ?_⟩
        cases sameRecord
        exact ⟨holding, instants⟩

/-- Every call a `Step` may make leaves it with what its next view claims to know. -/
theorem stepCall_triple (preserved : Preserved s J) (own : o.config.name = s.name) {c : Controller}
    {interruptions : GoMap String Bool} {view : View} {request : Request} (allowed : view.allowed c request) :
    s.WorkerTriple J thread (knows s view) (o.stepCall interruptions request)
      fun reply w => View.answers request reply ∧ knows s (view.next request reply) w := by
  -- providers and GitHub leave the cluster alone
  have ask {asked : ApiRequest} {post : ApiReply asked → Cluster → Prop}
      (outside : ∀ w reply after, s.rules.semantics thread w asked reply after →
        ∃ history, history = w.history ∧ after = { w with history := history })
      (next : ∀ reply w, knows s view w → post reply w) :
      s.WorkerTriple J thread (knows s view) (ask (S := Api) asked) post := by
    refine (outside_triple (knows_stable view) fun w reply after executed => ?_).mono fun reply w ⟨_, knowing⟩ =>
      next reply w knowing
    obtain ⟨_, rfl, rfl⟩ := outside w reply after executed
    rfl
  cases request with
  | load id =>
    cases allowed
    refine load_triple (knows_stable _) (fun e w _ _ => ⟨trivial, trivial, fun a same => by cases same⟩) ?_
    intro a w kept _ found _
    refine ⟨trivial, trivial, fun b same => ?_⟩
    cases same
    exact ⟨.of_record kept found, fun now reads => by cases reads⟩
  | now =>
    obtain ⟨a, rfl⟩ := allowed
    refine (now_triple preserved (knows_stable _)).mono fun now w ⟨kept, knowing, clock, shown⟩ => ?_
    refine ⟨trivial, trivial, fun b same => ?_⟩
    cases same
    obtain ⟨holding, _⟩ := knowing.2 a rfl
    refine ⟨holding, fun t reads => ?_⟩
    cases reads
    -- the record was stored before the clock was read, and its stamp is older still
    obtain ⟨stamp, found⟩ := GoMap.mem_iff.mp holding.created
    have past := (kept.sound.stamped a.id stamp found).2
    rw [show (s.books w).clock = now from clock] at past
    refine ⟨⟨stamp, found, past, by rw [show (s.books w).clock = now from clock]; exact .refl, shown⟩, ?_⟩
    rw [← clock]
    exact holding.rejected
  | save x revision => exact stepCall_save preserved own allowed
  | create provider a | createWithResources provider a =>
    obtain ⟨now, offering, rfl, _⟩ := allowed
    exact ask (fun _ _ _ executed => executed) fun reply w knowing =>
      ⟨trivial, knows_next knowing knowing.1 (.inr ⟨rfl, rfl⟩)⟩
  | observe provider a | reconcileCreation provider a =>
    obtain ⟨now, rfl, _⟩ := allowed
    exact ask (fun _ _ _ executed => executed) fun reply w knowing =>
      ⟨trivial, knows_next knowing trivial (.inr ⟨rfl, rfl⟩)⟩
  | delete provider a =>
    obtain ⟨now, ob, rfl, _⟩ := allowed
    refine ask (fun _ _ _ executed => executed) fun reply w knowing => ⟨trivial, ?_⟩
    cases reply with
    | none => exact ⟨trivial, fun a same => by cases same⟩
    | some e => exact knows_next knowing trivial (.inr ⟨rfl, rfl⟩)
  | deregisterRunner id =>
    refine ask (fun _ _ _ executed => executed) fun reply w knowing => ⟨trivial, ?_⟩
    obtain ⟨now, a, rfl, _⟩ | ⟨now, a, ob, e, rfl, _⟩ := allowed
    all_goals cases reply with
      | none => exact knows_next knowing trivial (.inr ⟨rfl, rfl⟩)
      | some e => exact ⟨trivial, fun a same => by cases same⟩

/-- `Step` is safe next to any other worker. -/
theorem step_triple (preserved : Preserved s J) (own : o.config.name = s.name) (c : Controller)
    (interruptions : GoMap String Bool) (id : String) :
    s.WorkerTriple J thread (fun _ => True) ((c.step id).interpret (o.stepCall interruptions))
      fun _ _ => True := by
  have safe := Rely.Triple.interpret (fun view request allowed =>
    @stepCall_triple s J thread o preserved own c interruptions view request allowed) (step_follows (c := c) id)
  exact (safe.mono fun _ _ _ => trivial).pre_mono fun w _ => ⟨trivial, fun a same => by cases same⟩

theorem stepWorker_triple (preserved : Preserved s J) (own : o.config.name = s.name) (c : Controller)
    (interruptions : GoMap String Bool) (id : String) :
    s.WorkerTriple J thread (fun _ => True) (o.stepWorker c interruptions id)
      fun _ _ => True := by
  refine .bind (step_triple preserved own c interruptions id) fun err => ?_
  have reload : s.WorkerTriple J thread (fun _ => True) (o.store.load id) fun _ _ => True :=
    load_triple (Rely.stable_pure True) (fun _ _ _ _ => trivial) (fun _ _ _ _ _ _ => trivial)
  refine .bind reload fun reply => ?_
  cases reply <;> exact .done fun _ _ => trivial

end Step

/-! ## The other writers -/

theorem touched_advances (touched : Touched a x) :
    x.id = a.id ∧ Advances a x ∧ x.terminalAt = a.terminalAt ∧ x.rejectedAt = a.rejectedAt ∧ x.phase = a.phase := by
  rw [touched]
  exact ⟨rfl, ⟨rfl, rfl, fun _ => ⟨rfl, rfl⟩, .inl rfl, rfl, rfl, .same rfl rfl⟩, rfl, rfl, rfl⟩

/-- What a job handler or the retirement of an allocation knows. -/
def holds (s : Setting) (view : WriterView) (w : Cluster) : Prop :=
  ∀ a, view = .read a → Holding s a w

section Writers

variable {s : Setting} {J : Cluster → Prop} {thread : Nat} {o : Operator}

theorem holds_stable (view : WriterView) : (s.workers J).Stable thread (holds s view) :=
  fun before after kept relied holding a same => holding_stable a before after kept relied (holding a same)

theorem writerCall_triple (preserved : Preserved s J) (own : o.config.name = s.name)
    {interruptions : GoMap String Bool} {view : WriterView} {request : Request} (allowed : view.allowed Edit request) :
    s.WorkerTriple J thread (holds s view) (o.stepCall interruptions request)
      fun reply w => writerProtocol.answers request reply ∧ holds s (view.next request reply) w := by
  cases request with
  | load id =>
    cases allowed
    refine load_triple (holds_stable _) (fun e w _ _ => ⟨trivial, fun a same => by cases same⟩) ?_
    intro a w kept _ found _
    refine ⟨trivial, fun b same => ?_⟩
    cases same
    exact .of_record kept found
  | now => exact (now_triple preserved (holds_stable _)).mono fun now w ⟨_, holding, _⟩ => ⟨trivial, holding⟩
  | save x revision =>
    obtain ⟨a, rfl, rfl, edit⟩ := allowed
    obtain ⟨named, advances, terminalAt, rejectedAt, phase⟩ := touched_advances edit.touched
    refine (save_advances preserved own (holds_stable _) named (fun stored saved => advances.saved saved)
      fun w holding => ⟨holding a rfl, .inl terminalAt, .same rejectedAt phase⟩).mono fun reply w _ =>
        ⟨trivial, fun a same => ?_⟩
    cases reply <;> cases same
  | create | createWithResources | observe | reconcileCreation | delete | deregisterRunner => exact allowed.elim

theorem writer_triple (preserved : Preserved s J) (own : o.config.name = s.name) {interruptions : GoMap String Bool}
    {view : WriterView} {program : Program Calls (Option GoError)}
    (follows : program.Follows writerProtocol view fun _ _ => True) :
    s.WorkerTriple J thread (holds s view) (program.interpret (o.stepCall interruptions))
      fun _ _ => True :=
  (Rely.Triple.interpret (fun view request allowed =>
    @writerCall_triple s J thread o preserved own interruptions view request allowed) follows).mono fun _ _ _ => trivial

/-- The fan-out of `Tick`: each goroutine runs alongside the rest of the loop. -/
theorem stepAll_triple (preserved : Preserved s J) (own : o.config.name = s.name) (c : Controller)
    (interruptions : GoMap String Bool) (f : Fleet) (allocs : List Allocation) :
    s.WorkerTriple J thread (fun w => ∀ a ∈ allocs, Holding s a w)
      (o.stepAll c interruptions f allocs) fun _ _ => True := by
  refine stepAll_rule trivial holding_stable (fun a created _ => ?_)
    (fun id => stepWorker_triple preserved own c interruptions id) allocs
  have calls (view : WriterView) (request : Request) (allowed : view.allowed Edit request) :
      s.WorkerTriple J thread (holds s view) (o.examineCall interruptions a.id request)
        fun reply w => writerProtocol.answers request reply ∧ holds s (view.next request reply) w := by
    have call := @writerCall_triple s J thread o preserved own interruptions view request allowed
    cases request with
    | now =>
      refine .bind call fun now => .bind (outside_triple ((Rely.stable_pure _).and (holds_stable _)) ?_) fun _ =>
        .done fun _ noted => noted.2
      rintro w _ _ ⟨_, rfl, rfl⟩
      rfl
    | _ => exact call
  refine .pre_mono (.mono (.interpret calls (retireOverdue_follows _ _ created a)) fun _ _ _ _ => trivial)
    fun w holding b same => ?_
  cases same
  exact holding

end Writers

end RunnerScout.Capacity
