import RunnerScout.Ticks.Log

/-! # The goroutines of a cycle

`Step`, the retirement of overdue allocations and the job handlers, each of them safe
next to any number of others: whatever they write or ask for has its reason in the
log, and where calls do not overlap they leave the fleet and retired records as they
are.
-/

namespace RunnerScout.Ticks

open Interaction Program Lifecycle Placement Operator State

variable {log : Log} {now : Time} {r a x stored : Allocation}

/-! ## Reasons stand -/

theorem lastPolled_append {thread : Nat} {recent : Log} (unpolled : ∀ reply, .polled thread reply ∉ recent) :
    lastPolled thread (recent ++ log) = lastPolled thread log := by
  induction recent with
  | nil => rfl
  | cons event recent ih =>
    have rest := ih fun reply member => unpolled reply (List.mem_cons_of_mem _ member)
    cases event with
    | polled poller reply =>
      have other : poller ≠ thread := by
        rintro rfl
        exact unpolled reply List.mem_cons_self
      simp only [List.cons_append, lastPolled, other, if_false]
      exact rest
    | shown | examined | asked | registered | deregistered | wrote => exact rest

section Stable

variable {crew : Crew} {first : Maps} {thread : Nat} {w after : Site}

theorem Extends.mem (extends_ : Extends crew.name thread w after) {event : Event} (member : event ∈ w.history) :
    event ∈ after.history := by
  obtain ⟨recent, more, _⟩ := extends_.history
  rw [more]
  exact List.mem_append_right _ member

theorem Polled.extends {interruptions : GoMap String Bool} (polled : Polled crew w.history thread interruptions)
    (extends_ : Extends crew.name thread w after) : Polled crew after.history thread interruptions := by
  obtain ⟨recent, more, others⟩ := extends_.history
  have unpolled (reply : Except GoError (List Interruption)) : .polled thread reply ∉ recent :=
    fun member => others _ member (.inl ⟨reply, rfl⟩)
  have same : lastPolled thread after.history = lastPolled thread w.history := by
    rw [more, lastPolled_append unpolled]
  cases polled with
  | off unset => exact .off unset
  | failed last => exact .failed (same.trans last)
  | read last => exact .read (same.trans last)

theorem Since.extends {entry : Event} (since : Since crew.name thread w.history entry)
    (extends_ : Extends crew.name thread w after) : Since crew.name thread after.history entry := by
  obtain ⟨more, grown, others⟩ := extends_.history
  obtain ⟨recent, earlier, same, made, unsaved⟩ := since
  refine ⟨more ++ recent, earlier, ?_, List.mem_append_right _ made, fun event member saved => ?_⟩
  · rw [grown, same, List.append_assoc]
  · obtain new | old := List.mem_append.mp member
    · exact others event new (.inr saved)
    · exact unsaved event old saved

theorem ReadSince.extends {id : String} (read : ReadSince crew.name thread w.history id now)
    (extends_ : Extends crew.name thread w after) : ReadSince crew.name thread after.history id now :=
  ⟨read.1.extends extends_, read.2.extends extends_⟩

theorem Since.mem {name : String} {entry : Event} (since : Since name thread log entry) : entry ∈ log := by
  obtain ⟨recent, earlier, rfl, made, _⟩ := since
  exact List.mem_append_left _ made

variable (relied : (workers crew first).rely thread w after)

include relied

theorem Examined.stands (examined : Examined crew w.maps w.history thread r) :
    Examined crew after.maps after.history thread r := by
  intro serial o call unretired
  obtain ⟨running, stamp, now, stamped, shown, early⟩ := examined serial o call unretired
  have fleet : after.maps.fleet crew.name = w.maps.fleet crew.name := (relied.2 serial).fleet
  exact ⟨running, stamp, now, by rw [fleet]; exact stamped, shown.extends relied.1, early⟩

theorem Commits.stands (commits : Commits crew w.maps w.history thread a) :
    Commits crew after.maps after.history thread a := by
  obtain ⟨pending, waits, chosen, saved, shown, examined⟩ := commits
  exact ⟨pending, waits, chosen, saved, relied.1.mem shown, examined.stands relied⟩

theorem Observed.stands {interruptions : GoMap String Bool} {ob : Observation} {e : Option GoError}
    (observed : Observed w.history thread interruptions a ob e) :
    Observed after.history thread interruptions a ob e := by
  cases observed with
  | observe kept kin event => exact .observe kept kin (relied.1.mem event)
  | reconcile creating kin event => exact .reconcile creating kin (relied.1.mem event)

theorem Backed.stands {interruptions : GoMap String Bool} {view : View}
    (backed : Backed crew w.maps w.history thread interruptions view) :
    Backed crew after.maps after.history thread interruptions view := by
  cases view with
  | start | created | closed => trivial
  | loaded a => exact Examined.stands relied backed
  | deciding now a cleared => exact ⟨relied.1.mem backed.1, backed.2.stands relied⟩
  | committed now o a => exact Commits.stands relied backed
  | observed now a ob e cleared => exact Observed.stands relied backed

end Stable

/-! ## Requests -/

section Requests

variable {crew : Crew} {first : Maps} {thread : Nat} {pre : Site → Prop}

/-- Entries that are neither writes nor polls. -/
theorem logged {w : Site} (kept : Kept crew first w) (recent : Log) (clock : Time)
    (shared : ∀ event ∈ recent, ∀ other, ¬ Private crew.name other event)
    (chronicle : Chronicle crew first (recent ++ w.history) w.maps) :
    Kept crew first { w with clock := clock, history := recent ++ w.history } ∧
      ∀ other, (workers crew first).rely other w { w with clock := clock, history := recent ++ w.history } :=
  ⟨⟨kept.wellFormed, chronicle, kept.pending⟩, fun other =>
    ⟨⟨⟨Nat.le_refl _, fun _ _ found => .inl found⟩, recent, rfl, fun event member => shared event member other⟩, fun _ =>
      ⟨rfl, fun _ r found => ⟨r, found, fun retired => retired⟩⟩⟩⟩

theorem now_triple (stable : (workers crew first).Stable thread pre) :
    crew.WorkerTriple first thread pre (ask (S := Api) .now)
      fun now w => pre w ∧ Since crew.name thread w.history (.shown thread now) := by
  refine .request stable fun w now after kept holds executed => ?_
  obtain ⟨_, rfl⟩ := executed
  obtain ⟨keeps, others⟩ := logged kept [.shown thread now] now (by simp [Private, SavedFleet])
    (kept.chronicle.event trivial)
  exact ⟨keeps, fun other _ => others other, stable w _ keeps (others thread) holds,
    [.shown thread now], w.history, rfl, List.mem_singleton.mpr rfl, by simp [SavedFleet]⟩

/-- The instant an allocation is examined by. -/
theorem examined_triple (stable : (workers crew first).Stable thread pre) (id : String) (now : Time) :
    crew.WorkerTriple first thread (fun w => pre w ∧ Since crew.name thread w.history (.shown thread now))
      (ask (S := Api) (.note (.examined id now))) fun _ w => pre w ∧ ReadSince crew.name thread w.history id now := by
  have shownStable : (workers crew first).Stable thread
      fun w => pre w ∧ Since crew.name thread w.history (.shown thread now) :=
    stable.and fun _ _ _ relied since => since.extends relied.1
  refine .request shownStable fun w _ after kept holds executed => ?_
  obtain ⟨_, rfl, rfl⟩ := executed
  obtain ⟨keeps, others⟩ := logged kept [.examined thread id now] w.clock (by simp [Private, SavedFleet])
    (kept.chronicle.event trivial)
  obtain ⟨still, shown⟩ := shownStable w _ keeps (others thread) holds
  exact ⟨keeps, fun other _ => others other, still, shown,
    [.examined thread id now], w.history, rfl, List.mem_singleton.mpr rfl, by simp [SavedFleet]⟩

theorem deregister_triple (stable : (workers crew first).Stable thread pre) (id : String) :
    crew.WorkerTriple first thread pre (ask (S := Api) (.deregisterRunner id))
      fun _ w => pre w := by
  refine .request stable fun w reply after kept holds executed => ?_
  obtain ⟨_, rfl, rfl⟩ := executed
  obtain ⟨keeps, others⟩ := logged kept [.deregistered thread id reply] w.clock (by simp [Private, SavedFleet])
    (kept.chronicle.event trivial)
  exact ⟨keeps, fun other _ => others other, stable w _ keeps (others thread) holds⟩

/-- A call to a provider is logged with its answer; a create call may register a runner. -/
theorem provider_triple {interruptions : GoMap String Bool} {request : Request}
    (stable : (workers crew first).Stable thread pre)
    (polled : ∀ w, pre w → Polled crew w.history thread interruptions)
    (commits : ∀ w a, pre w → created request = some a → Commits crew w.maps w.history thread a) :
    crew.WorkerTriple first thread pre
      (ask (S := Api) (.provider interruptions request))
      fun reply w => pre w ∧ .asked thread interruptions request reply ∈ w.history := by
  refine .request stable fun w reply after kept holds executed => ?_
  obtain ⟨history, ⟨answers, same⟩, rfl⟩ := executed
  have reason : Reason crew w.maps w.history (.asked thread interruptions request reply) :=
    ⟨answers, polled w holds, fun a => commits w a holds⟩
  obtain rfl | ⟨a, _, rfl⟩ := same
  · obtain ⟨keeps, others⟩ := logged kept [.asked thread interruptions request reply] w.clock (by simp [Private, SavedFleet])
      (kept.chronicle.event reason)
    exact ⟨keeps, fun other _ => others other, stable w _ keeps (others thread) holds, List.mem_cons_self⟩
  · obtain ⟨keeps, others⟩ := logged kept [.registered a.id, .asked thread interruptions request reply] w.clock
      (by simp [Private, SavedFleet])
      ((kept.chronicle.event reason).event trivial)
    exact ⟨keeps, fun other _ => others other, stable w _ keeps (others thread) holds,
      List.mem_cons_of_mem _ List.mem_cons_self⟩

/-- Saving over a record that was read, which stays retired if it was. -/
theorem save_seen {store : Kubernetes} (own : store.owner = crew.name)
    (stable : (workers crew first).Stable thread pre) (named : x.id = r.id)
    (retire : r.retire = true → x.retire = true) (seen : ∀ w, pre w → RecordSeen r w)
    (reason : ∀ w stored, pre w → Stores r x r.revision stored →
      Replaced crew w.maps w.history thread (some r) (some stored)) :
    crew.WorkerTriple first thread pre (store.save x r.revision)
      fun reply w => pre w ∧ ∀ stored, reply = .ok stored →
        Saved x stored ∧ RecordSeen stored w ∧ w.record r.id = some stored := by
  by_cases present : r.revision = 0
  · exact fun w holds => absurd present (seen w holds).1
  refine save_triple workers_respects own present stable ?_ ?_
  · exact fun e w _ holds => ⟨holds, fun stored same => by cases same⟩
  · intro w stored after kept holds saved
    obtain ⟨keeps, extends_, found, stores, records, fleet⟩ :=
      kept.saved (seen w holds) named saved fun stores => reason w stored holds stores
    have content := stores.saved
    have steady : Steady crew w after := by
      refine ⟨fleet, fun id a current => ?_⟩
      rw [records] at current
      by_cases same : id = r.id
      · subst same
        rw [Function.update_self] at current
        cases current
        exact ⟨r, found, fun retired => by rw [content]; exact retire retired⟩
      · rw [Function.update_of_ne same] at current
        exact ⟨a, current, fun retired => retired⟩
    have still := stable w after keeps ⟨extends_ thread, fun _ => steady⟩ holds
    have current : after.record r.id = some stored := by rw [records, Function.update_self]
    refine ⟨⟨keeps, fun other _ => ⟨extends_ other, fun _ => steady⟩⟩, ⟨still, fun other same => ?_⟩,
      fun e => ⟨still, fun other same => by cases same⟩⟩
    cases same
    exact ⟨content, .of_record keeps.wellFormed current, current⟩

end Requests

/-! ## `Step` -/

/-- What `Step` never changes. -/
theorem writes_frame {c : Controller} {view : View} (writes : view.writes c x) (held : view.held = some r) :
    x.id = r.id ∧ x.retire = r.retire := by
  cases writes with
  | pending phase retains write => cases held; cases write <;> exact ⟨rfl, rfl⟩
  | fence phase => cases held; exact ⟨rfl, rfl⟩
  | cleanUp phase overdue => cases held; exact ⟨rfl, rfl⟩
  | created write => cases held; cases write <;> exact ⟨rfl, rfl⟩
  | observed write =>
    cases held
    cases write with
    | found creating succeeded known present =>
      unfold Allocation.found
      dsimp only
      split <;> exact ⟨rfl, rfl⟩
    | remember | undecided | release | unconfirmed => exact ⟨rfl, rfl⟩

/-- What a running `Step` knows once it has loaded its record. -/
structure Knows (crew : Crew) (thread : Nat) (interruptions : GoMap String Bool) (view : View) (w : Site) : Prop where
  loaded : view ≠ .start
  seen : ∀ a, view.held = some a → RecordSeen a w
  backed : Backed crew w.maps w.history thread interruptions view
  polled : Polled crew w.history thread interruptions

section Step

variable {crew : Crew} {first : Maps} {thread : Nat} {o : Operator} {c : Controller} {interruptions : GoMap String Bool}

theorem knows_stable (view : View) : (workers crew first).Stable thread (Knows crew thread interruptions view) :=
  fun _ _ _ relied knows =>
    ⟨knows.loaded, fun a held => (knows.seen a held).evolves relied.1.evolves, knows.backed.stands relied,
      knows.polled.extends relied.1⟩

theorem Knows.closed {view : View} {w : Site} (knows : Knows crew thread interruptions view w) :
    Knows crew thread interruptions .closed w :=
  ⟨View.noConfusion, fun _ held => (by cases held), trivial, knows.polled⟩

/-- An examination is of the identity and of the retirement of a record. -/
theorem Examined.same {maps : Maps} (examined : Examined crew maps log thread r) (id : a.id = r.id)
    (retire : a.retire = r.retire) : Examined crew maps log thread a := by
  intro serial o call unretired
  rw [id]
  exact examined serial o call (retire ▸ unretired)

/-- What `Step` saves after an observation still names what was observed. -/
theorem observed_kin {asked : Allocation} {ob : Observation} {e : Option GoError} {cleared : Bool}
    (write : ObservedWrite c now a ob e cleared x) (saved : Saved x stored)
    (kin : ob.absent e → a.phase.terminal = false → Kin asked a) (absent : ob.absent e)
    (live : stored.phase.terminal = false) : Kin asked stored := by
  have fields : stored.id = x.id ∧ stored.phase = x.phase ∧ stored.offering = x.offering ∧
      stored.resourceID = x.resourceID ∧ stored.retire = x.retire := by
    rw [saved]
    exact ⟨rfl, rfl, rfl, rfl, rfl⟩
  obtain ⟨id, phase, offering, resourceID, retire⟩ := fields
  rw [phase] at live
  have same (unchanged : x.id = a.id ∧ x.phase = a.phase ∧ x.offering = a.offering ∧ x.resourceID = a.resourceID ∧
      x.retire = a.retire) : Kin asked stored := by
    obtain ⟨id', phase', offering', resourceID', retire'⟩ := unchanged
    have known := kin absent (phase' ▸ live)
    exact ⟨(id.trans id').trans known.id, (phase.trans phase').trans known.phase,
      (offering.trans offering').trans known.offering, (resourceID.trans resourceID').trans known.resourceID,
      (retire.trans retire').trans known.retire⟩
  cases write with
  | remember | undecided | unconfirmed => exact same ⟨rfl, rfl, rfl, rfl, rfl⟩
  | release => cases live
  | found creating succeeded known present =>
    obtain ⟨_, _, gone⟩ := absent
    rw [present] at gone
    cases gone

/-- The view after a save rests on the same events. -/
theorem backed_saved {maps : Maps} {view : View} (writes : view.writes c x) (held : view.held = some r)
    (saved : Saved x stored) (backed : Backed crew maps log thread interruptions view) :
    Backed crew maps log thread interruptions (view.next (.save x r.revision) (.ok stored)) := by
  obtain ⟨id, retire⟩ := writes_frame writes held
  have same : stored.id = r.id ∧ stored.retire = r.retire := by
    rw [saved]
    exact ⟨id, retire⟩
  cases writes with
  | @pending now a cleared x phase retains write =>
    cases held
    obtain ⟨shown, examined⟩ := backed
    cases write with
    | timeOut givesUp deregistered =>
      simp only [View.next, Allocation.timeOut, reduceCtorEq, and_false, if_false]
      exact ⟨shown, examined.same same.1 same.2⟩
    | refused waits e refused =>
      simp only [View.next, phase, reduceCtorEq, and_false, if_false]
      exact ⟨shown, examined.same same.1 same.2⟩
    | commit waits o chosen =>
      simp only [View.next, phase, Allocation.commit, and_self, if_true]
      exact ⟨phase, waits, chosen, saved, shown, examined⟩
  | fence phase | cleanUp phase overdue =>
    -- only the save of a pending record starts a creation
    cases held
    simp only [View.next, phase, reduceCtorEq, false_and, if_false]
    exact ⟨backed.1, backed.2.same same.1 same.2⟩
  | created write => trivial
  | @observed now a ob e cleared x write =>
    cases held
    cases backed with
    | observe kept kin event => exact .observe kept (observed_kin write saved kin) event
    | reconcile creating kin event => exact .reconcile creating (observed_kin write saved kin) event

theorem View.next_save_ne_start (view : View) (x : Allocation) (revision : Revision) (stored : Allocation) :
    view.next (.save x revision) (.ok stored) ≠ .start := by
  cases view <;> simp only [View.next] <;> (try split) <;> exact View.noConfusion

theorem View.next_save_held {view : View} {revision : Revision}
    (held : (view.next (.save x revision) (.ok stored)).held = some a) : a = stored := by
  cases view with
  | deciding now b cleared =>
    simp only [View.next] at held
    split at held <;> cases held <;> rfl
  | observed now b ob e cleared => cases held; rfl
  | start | loaded | committed | created | closed => cases held

/-- Every call a `Step` makes leaves it with what its next view claims. -/
theorem stepCall_triple (own : o.config.name = crew.name) {view : View} {request : Request}
    (allowed : view.allowed c request) :
    crew.WorkerTriple first thread (Knows crew thread interruptions view)
      (o.stepCall interruptions request)
      fun reply w => View.answers request reply ∧ Knows crew thread interruptions (view.next request reply) w := by
  have polled (w : Site) (knows : Knows crew thread interruptions view w) :
      Polled crew w.history thread interruptions :=
    knows.polled
  cases request with
  | load id =>
    cases allowed
    exact fun w knows => absurd rfl knows.loaded
  | now =>
    obtain ⟨a, rfl⟩ := allowed
    refine (now_triple (knows_stable _)).mono fun now w ⟨knows, shown⟩ => ⟨trivial, ?_⟩
    exact ⟨View.noConfusion, knows.seen, ⟨shown.mem, knows.backed⟩, knows.polled⟩
  | save x revision =>
    obtain ⟨writes, r, held, rfl⟩ := allowed
    obtain ⟨named, retire⟩ := writes_frame writes held
    have save : crew.WorkerTriple first thread (Knows crew thread interruptions view)
        (o.store.save x r.revision) _ :=
      save_seen own (knows_stable view) named (fun retired => retire.trans retired) (fun w knows => knows.seen r held)
        fun w stored knows stores => .stepped writes held knows.backed stores knows.polled
    refine save.mono fun reply w ⟨knows, stores⟩ => ?_
    cases reply with
    | error e => exact ⟨trivial, by cases view <;> exact knows.closed⟩
    | ok stored =>
      obtain ⟨saved, seen, _⟩ := stores stored rfl
      refine ⟨saved, View.next_save_ne_start _ _ _ _, fun a same => ?_, backed_saved writes held saved knows.backed,
        knows.polled⟩
      rw [View.next_save_held same]
      exact seen
  | create provider a | createWithResources provider a =>
    obtain ⟨now, offering, rfl, _⟩ := allowed
    refine (provider_triple (knows_stable _) polled fun w b knows same => ?_).mono
      fun reply w ⟨knows, _⟩ => ⟨trivial, View.noConfusion, knows.seen, trivial, knows.polled⟩
    cases same
    exact knows.backed
  | observe provider a =>
    obtain ⟨now, rfl, rfl, phases⟩ := allowed
    refine (provider_triple (knows_stable _) polled fun w b knows same => by cases same).mono
      fun reply w ⟨knows, asked⟩ => ⟨trivial, View.noConfusion, knows.seen, ?_, knows.polled⟩
    refine .observe (fun running => ?_) (fun _ _ => ⟨rfl, rfl, rfl, rfl, rfl⟩) asked
    obtain phase | ⟨_, due⟩ | phase := phases
    · cases running.symm.trans phase
    · exact (Bool.or_eq_false_iff.mp due).1
    · cases running.symm.trans phase
  | reconcileCreation provider a =>
    obtain ⟨now, rfl, rfl, creating⟩ := allowed
    refine (provider_triple (knows_stable _) polled fun w b knows same => by cases same).mono
      fun reply w ⟨knows, asked⟩ => ⟨trivial, View.noConfusion, knows.seen, ?_, knows.polled⟩
    exact .reconcile creating (fun _ _ => ⟨rfl, rfl, rfl, rfl, rfl⟩) asked
  | delete provider a =>
    obtain ⟨now, ob, rfl, _⟩ := allowed
    refine (provider_triple (knows_stable _) polled fun w b knows same => by cases same).mono
      fun reply w ⟨knows, _⟩ => ⟨trivial, ?_⟩
    cases reply with
    | none => exact knows.closed
    | some e => exact knows
  | deregisterRunner id =>
    refine (deregister_triple (knows_stable view) id).mono fun reply w knows => ⟨trivial, ?_⟩
    obtain ⟨now, a, rfl, _⟩ | ⟨now, a, ob, e, rfl, _⟩ := allowed
    all_goals cases reply with
      | none => exact ⟨View.noConfusion, knows.seen, knows.backed, knows.polled⟩
      | some e => exact knows.closed

/-- What is known of an allocation once its record was examined. -/
def Ready (crew : Crew) (o : Operator) (thread : Nat) (interruptions : GoMap String Bool) (id : String) (w : Site) : Prop :=
  Polled crew w.history thread interruptions ∧ (crew.Serial → ∀ r, w.record id = some r → r.retire = false →
    o.draining = false ∧ ∃ stamp now, (w.fleet crew.name).created.lookup id = some stamp ∧
      ReadSince crew.name thread w.history id now ∧ now < stamp + o.config.maxLifetimeSeconds * second)

theorem ready_stable (id : String) :
    (workers crew first).Stable thread (Ready crew o thread interruptions id) := by
  rintro w after _ relied ⟨polled, examined⟩
  refine ⟨polled.extends relied.1, fun serial r found unretired => ?_⟩
  obtain ⟨fleet, records⟩ := relied.2 serial
  obtain ⟨earlier, known, retire⟩ := records id r found
  have before : earlier.retire = false := by
    rw [← Bool.not_eq_true]
    intro retired
    rw [retire retired] at unretired
    cases unretired
  obtain ⟨running, stamp, now, stamped, shown, early⟩ := examined serial earlier known before
  exact ⟨running, stamp, now, by rw [fleet]; exact stamped, shown.extends relied.1, early⟩

/-- The goroutine of an allocation that was examined. -/
theorem stepWorker_triple (own : o.config.name = crew.name) (call : crew.calls thread = .tick o) (id : String) :
    crew.WorkerTriple first thread (Ready crew o thread interruptions id)
      (o.stepWorker c interruptions id) fun _ _ => True := by
  have reload : crew.WorkerTriple first thread (fun _ => True) (o.store.load id)
      fun _ _ => True :=
    load_triple (Rely.stable_pure True) (fun _ _ _ _ => trivial) (fun _ _ _ _ _ _ => trivial)
  have load : crew.WorkerTriple first thread (Ready crew o thread interruptions id)
      (o.store.load id) fun reply w => ∀ a, reply = .ok a → Knows crew thread interruptions (.loaded a) w := by
    refine load_triple (ready_stable id) (fun e w _ _ a same => by cases same) ?_
    rintro a w kept ⟨polled, examined⟩ found named b same
    cases same
    refine ⟨View.noConfusion, fun b held => ?_, fun serial o' tick unretired => ?_, polled⟩
    · cases held
      exact .of_record kept.wellFormed found
    · rw [call] at tick
      cases tick
      rw [named]
      exact examined serial a found unretired
  have step : crew.WorkerTriple first thread (Ready crew o thread interruptions id)
      ((c.step id).interpret (o.stepCall interruptions)) fun _ _ => True := by
    refine .bind load fun reply => ?_
    cases reply with
    | error e => exact .done fun _ _ => trivial
    | ok a =>
      -- from here on the protocol of `Step` says all there is to say
      have rest := (step_follows (c := c) id).2 (.ok a) trivial
      have safe := Rely.Triple.interpret (fun view request allowed =>
        @stepCall_triple crew first thread o c interruptions own view request allowed) rest
      exact (safe.mono fun _ _ _ => trivial).pre_mono fun w knows => knows a rfl
  refine .bind step fun err => ?_
  refine .bind reload fun reply => ?_
  cases reply <;> exact .done fun _ _ => trivial

/-! ### Examination -/

/-- What is known of a record that was found in the list of all. -/
structure Found (crew : Crew) (f : Fleet) (a : Allocation) (w : Site) : Prop where
  seen : RecordSeen a w
  stamps : crew.Serial → (w.fleet crew.name).created = f.created
  retired : crew.Serial → a.retire = true → ∀ r, w.record a.id = some r → r.retire = true

/-- The same once the cycle has polled. -/
structure Listed (crew : Crew) (f : Fleet) (thread : Nat) (interruptions : GoMap String Bool) (a : Allocation) (w : Site) :
    Prop extends Found crew f a w where
  polled : Polled crew w.history thread interruptions

theorem found_stable (f : Fleet) (a : Allocation) : (workers crew first).Stable thread (Found crew f a) := by
  intro w after _ relied found
  refine ⟨found.seen.evolves relied.1.evolves, fun serial => ?_, fun serial retired r current => ?_⟩
  · rw [(relied.2 serial).fleet]
    exact found.stamps serial
  · obtain ⟨earlier, known, retire⟩ := (relied.2 serial).records a.id r current
    exact retire (found.retired serial retired earlier known)

theorem listed_stable (f : Fleet) (a : Allocation) :
    (workers crew first).Stable thread (Listed crew f thread interruptions a) :=
  fun w after kept relied listed =>
    ⟨found_stable f a w after kept relied listed.toFound, listed.polled.extends relied.1⟩

/-- A listed record is retired, or found to be within its lifetime. -/
theorem examine_triple (own : o.config.name = crew.name) {f : Fleet} {stamp : Time}
    (stamped : f.created.lookup a.id = some stamp) :
    crew.WorkerTriple first thread (Listed crew f thread interruptions a)
      (o.examine interruptions stamp a) fun failed w => failed = none → Ready crew o thread interruptions a.id w := by
  have retire : crew.WorkerTriple first thread (Listed crew f thread interruptions a)
      ((save { a with retire := true }).interpret (o.examineCall interruptions a.id))
      fun failed w => failed = none → Ready crew o thread interruptions a.id w := by
    have save : crew.WorkerTriple first thread (Listed crew f thread interruptions a)
        (o.store.save { a with retire := true } a.revision) _ :=
      save_seen own (listed_stable f a) rfl (fun _ => rfl) (fun w listed => listed.seen)
        fun w stored _ stores => .edited (.inl .retired) stores
    refine .bind save fun reply => ?_
    cases reply with
    | error e => exact .done fun w _ same => by cases same
    | ok stored =>
      refine .done fun w ⟨listed, stores⟩ _ => ⟨listed.polled, fun _ r found unretired => ?_⟩
      obtain ⟨saved, _, current⟩ := stores stored rfl
      rw [current] at found
      cases found
      rw [saved] at unretired
      cases unretired
  unfold Operator.examine retireOverdue
  split
  · rename_i retired
    refine .done fun w listed _ => ⟨listed.polled, fun serial r found unretired => ?_⟩
    rw [listed.retired serial retired r found] at unretired
    cases unretired
  split
  · exact retire
  rename_i running
  have read : crew.WorkerTriple first thread (Listed crew f thread interruptions a)
      (o.examineCall interruptions a.id .now) fun now w =>
        Listed crew f thread interruptions a w ∧ ReadSince crew.name thread w.history a.id now :=
    .bind (now_triple (listed_stable f a)) fun now => .bind (examined_triple (listed_stable f a) a.id now) fun _ =>
      .done fun _ holds => holds
  refine .bind read fun now => ?_
  change crew.WorkerTriple first thread _
    ((if now < stamp + o.config.maxLifetimeSeconds * second then Program.done none else save { a with retire := true } :
      Program Calls (Option GoError)).interpret (o.examineCall interruptions a.id)) _
  split
  · rename_i early
    refine .done fun w ⟨listed, shown⟩ _ => ⟨listed.polled, fun serial r found _ => ?_⟩
    refine ⟨by simpa using running, stamp, now, ?_, shown, early⟩
    rw [listed.stamps serial]
    exact stamped
  · exact retire.pre_mono fun w ⟨listed, _⟩ => listed

end Step

/-! ## Job handlers -/

/-- What a job handler knows. -/
def Holds (view : WriterView) (w : Site) : Prop := ∀ a, view = .read a → RecordSeen a w

section Writers

variable {crew : Crew} {first : Maps} {thread : Nat} {o : Operator} {interruptions : GoMap String Bool}

theorem holds_stable (view : WriterView) : (workers crew first).Stable thread (Holds view) :=
  fun _ _ _ relied holds a same => (holds a same).evolves relied.1.evolves

theorem edit_retire (edit : Edit a x) (retired : a.retire = true) : x.retire = true := by
  cases edit with
  | started j =>
    unfold startedBy
    dsimp only
    split <;> exact retired
  | completed | retired => rfl

theorem writerCall_triple (own : o.config.name = crew.name) {view : WriterView} {request : Request}
    (allowed : view.allowed Edit request) :
    crew.WorkerTriple first thread (Holds view) (o.stepCall interruptions request)
      fun reply w => writerProtocol.answers request reply ∧ Holds (view.next request reply) w := by
  cases request with
  | load id =>
    cases allowed
    refine load_triple (holds_stable _) (fun e w _ _ => ⟨trivial, fun a same => by cases same⟩) ?_
    intro a w kept _ found _
    refine ⟨trivial, fun b same => ?_⟩
    cases same
    exact .of_record kept.wellFormed found
  | now => exact (now_triple (holds_stable view)).mono fun now w ⟨holds, _⟩ => ⟨trivial, holds⟩
  | save x revision =>
    obtain ⟨a, rfl, rfl, edit⟩ := allowed
    have named : x.id = a.id := by rw [edit.touched]
    have save : crew.WorkerTriple first thread (Holds (.read a)) (o.store.save x a.revision) _ :=
      save_seen own (holds_stable _) named (edit_retire edit) (fun w holds => holds a rfl)
        fun w stored _ stores => .edited (.inl edit) stores
    refine save.mono fun reply w _ => ⟨trivial, fun a same => ?_⟩
    cases reply <;> cases same
  | create | createWithResources | observe | reconcileCreation | delete | deregisterRunner => exact allowed.elim

theorem writer_triple (own : o.config.name = crew.name) {program : Program Calls (Option GoError)} {id : String}
    (writer : Writer id program) :
    crew.WorkerTriple first thread (fun _ => True) (program.interpret (o.stepCall interruptions))
      fun _ _ => True :=
  ((Rely.Triple.interpret (fun view request allowed =>
    @writerCall_triple crew first thread o interruptions own view request allowed) (writer_follows writer)).mono
    fun _ _ _ => trivial).pre_mono fun w _ a same => by cases same

end Writers

end RunnerScout.Ticks
