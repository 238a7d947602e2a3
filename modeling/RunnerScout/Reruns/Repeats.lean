import RunnerScout.Reruns.Passes

/-! # Requests are not repeated

A request that was not rejected stays open until it is found not to have happened.
As long as no pass starts before a pass has saved its fleet after the last such request,
the maps of a pass account for every open request, and none is made again.  A save of
the rest of the operator writes the maps it read and does not count.
-/

namespace RunnerScout.Reruns

open Interaction Operator RunnerScout.State

/-- A request is made and not rejected. -/
def Event.asks (run attempt : Int) : Event → Bool
  | .posted _ r k err => r = run && k = attempt && !errorIs err .rerunRejected
  | _ => false

/-- A request is found not to have happened. -/
def Event.refutes (run attempt : Int) : Event → Bool
  | .classified r k outcome => r = run && k = attempt && outcome = .confirmedDidNotHappen
  | _ => false

/-- A request was made and not rejected, and not found not to have happened since. -/
def isOpen (run attempt : Int) : List Event → Bool
  | [] => false
  | e :: older => e.asks run attempt || (!e.refutes run attempt && isOpen run attempt older)

/-- No request was made while one for the same run and attempt was open. -/
def unrepeated : List Event → Bool
  | [] => true
  | .posted _ run attempt _ :: older => !isOpen run attempt older && unrepeated older
  | _ :: older => unrepeated older

/-- A pass's own save at its end came after every request that was not rejected. -/
def settled : List Event → Bool
  | [] => true
  | .saved _ _ :: _ => true
  | .posted _ _ _ err :: older => errorIs err .rerunRejected && settled older
  | _ :: older => settled older

/-- Events that neither open nor close a request. -/
def Event.plain : Event → Bool
  | .started | .read _ _ _ | .recorded _ _ => true
  | .classified _ _ outcome => outcome ≠ .confirmedDidNotHappen
  | .posted _ _ _ err => errorIs err .rerunRejected
  | .saved _ _ => false

section Events

variable {e : Event} {events : List Event} {run attempt : Int}

theorem asks_plain (plain : e.plain = true) : e.asks run attempt = false := by
  cases e with
  | posted id r k err =>
    have rejected : errorIs err .rerunRejected = true := plain
    simp [Event.asks, rejected]
  | started | read | classified | recorded | saved => rfl

theorem refutes_plain (plain : e.plain = true) : e.refutes run attempt = false := by
  cases e with
  | classified r k outcome =>
    have other : outcome ≠ .confirmedDidNotHappen := by simpa [Event.plain] using plain
    simp [Event.refutes, other]
  | started | read | posted | recorded | saved => rfl

theorem isOpen_plain (plain : e.plain = true) : isOpen run attempt (e :: events) = isOpen run attempt events := by
  simp [isOpen, asks_plain plain, refutes_plain plain]

theorem settled_plain (plain : e.plain = true) : settled (e :: events) = settled events := by
  cases e with
  | posted id r k err =>
    have rejected : errorIs err .rerunRejected = true := plain
    simp [settled, rejected]
  | saved before after => cases plain
  | started | read | classified | recorded => rfl

/-- Passes that each start after the one before has finished keep to the condition. -/
theorem heeds_settled (heeds : Heeds finished events = true) :
    Heeds settled events = true ∧ (finished events = true → settled events = true) := by
  induction events with
  | nil => exact ⟨rfl, fun _ => rfl⟩
  | cons e older ih =>
    cases e with
    | started =>
      obtain ⟨ended, earlier⟩ := Bool.and_eq_true_iff.mp heeds
      obtain ⟨earlier, settles⟩ := ih earlier
      exact ⟨Bool.and_eq_true_iff.mpr ⟨settles ended, earlier⟩, fun _ => settles ended⟩
    | saved => exact ⟨(ih heeds).1, fun _ => rfl⟩
    | posted =>
      refine ⟨(ih heeds).1, fun ended => ?_⟩
      obtain ⟨rejected, ended⟩ := Bool.and_eq_true_iff.mp ended
      exact Bool.and_eq_true_iff.mpr ⟨rejected, (ih heeds).2 ended⟩
    | read | classified | recorded => exact ih heeds

theorem unrepeated_cons (past : unrepeated events = true)
    (new : ∀ id run attempt err, e = .posted id run attempt err → isOpen run attempt events = false) :
    unrepeated (e :: events) = true := by
  cases e with
  | posted id run attempt err => simp [unrepeated, new id run attempt err rfl, past]
  | started | read | classified | recorded | saved => exact past

end Events

/-! ## The maps account for open requests -/

namespace Book

/-- An unresolved request is for the attempt after those counted. -/
def Sound (b : Book) : Prop := ∀ run pr, b.marker run = some pr → pr.attempt = b.count run + 1

def Covers (b : Book) (run attempt : Int) : Prop :=
  attempt ≤ b.count run ∨ ∃ pr, b.marker run = some pr ∧ pr.attempt = attempt

end Book

section Books

variable {b : Book} {run other attempt : Int} {pr resolved : PendingRerun}

theorem Book.Sound.settle (sound : b.Sound) : (b.settle run attempt).Sound := by
  intro other pr marker
  by_cases same : other = run
  · subst same
    simp at marker
  · rw [marker_settle_ne same] at marker
    rw [count_settle_ne same]
    exact sound other pr marker

theorem Book.Sound.clear (sound : b.Sound) : (b.clear run).Sound := by
  intro other pr marker
  by_cases same : other = run
  · subst same
    simp at marker
  · rw [marker_clear_ne same] at marker
    exact sound other pr marker

theorem Book.Sound.park (sound : b.Sound) (next : pr.attempt = b.count run + 1) : (b.park run pr).Sound := by
  intro other resolved marker
  by_cases same : other = run
  · subst same
    rw [marker_park, Option.some_inj] at marker
    exact marker ▸ next
  · rw [marker_park_ne same] at marker
    exact sound other resolved marker

theorem Book.Sound.accept (sound : b.Sound) (free : b.marker run = none) : (b.accept run attempt).Sound := by
  intro other pr marker
  rw [marker_accept] at marker
  have different : other ≠ run := by
    rintro rfl
    rw [free] at marker
    cases marker
  rw [count_accept_ne different]
  exact sound other pr marker

/-- A request that is counted is covered from then on. -/
theorem Book.Covers.settle (sound : b.Sound) (marker : b.marker run = some pr) (covers : b.Covers other attempt) :
    (b.settle run pr.attempt).Covers other attempt := by
  by_cases same : other = run
  · subst same
    refine .inl ?_
    have next := sound other pr marker
    rw [count_settle]
    obtain counted | ⟨held, found, rfl⟩ := covers
    · omega
    · cases marker.symm.trans found
      exact Int.le_refl _
  · rw [Book.Covers, count_settle_ne same, marker_settle_ne same]
    exact covers

theorem Book.Covers.park (marker : ∀ held, b.marker run = some held → pr.attempt = held.attempt)
    (covers : b.Covers other attempt) : (b.park run pr).Covers other attempt := by
  by_cases same : other = run
  · subst same
    obtain counted | ⟨held, found, rfl⟩ := covers
    · exact .inl counted
    · exact .inr ⟨pr, marker_park, marker held found⟩
  · rw [Book.Covers, count_park, marker_park_ne same]
    exact covers

theorem Book.Covers.accept (covers : b.Covers other attempt) :
    (b.accept run (b.count run + 1)).Covers other attempt := by
  by_cases same : other = run
  · subst same
    rw [Book.Covers, count_accept, marker_accept]
    exact covers.imp_left fun counted => by omega
  · rw [Book.Covers, count_accept_ne same, marker_accept]
    exact covers

theorem Book.Covers.clear (covers : b.Covers other attempt)
    (closed : ∀ held, b.marker run = some held → ¬ (other = run ∧ attempt = held.attempt)) :
    (b.clear run).Covers other attempt := by
  obtain counted | ⟨held, found, rfl⟩ := covers
  · exact .inl counted
  · by_cases same : other = run
    · subst same
      exact absurd ⟨rfl, rfl⟩ (closed held found)
    · exact .inr ⟨held, by rw [marker_clear_ne same]; exact found, rfl⟩

end Books

/-! ## The invariant -/

/-- What the stored maps and the history keep. -/
structure Recorded (log : Log) : Prop where
  sound : log.stored.Sound
  covers : settled log.events = true → ∀ run attempt, isOpen run attempt log.events = true → log.stored.Covers run attempt
  unrepeated : unrepeated log.events = true

/-- A conclusion is about the request that was looked at. -/
def Turn.Concludes (b : Book) (todo : List (String × Int)) : Turn → Prop
  | .reading (some (_, resolved)) =>
    ∀ id run rest pr, todo = (id, run) :: rest → b.marker run = some pr → resolved.attempt = pr.attempt
  | _ => True

/-- What the pass under way keeps. -/
def Stage.Covers (events : List Event) : Stage → Prop
  | .idle => True
  | .listing => settled events = true
  | .running b todo turn =>
    b.Sound ∧ (∀ run attempt, isOpen run attempt events = true → b.Covers run attempt) ∧ turn.Concludes b todo

structure Guarded (s : State) : Prop where
  recorded : Recorded s.log
  covers : s.stage.Covers s.log.events

section Plain

variable {log : Log} {e : Event} {stage : Stage}

theorem Recorded.add (recorded : Recorded log) (plain : e.plain = true)
    (new : ∀ id run attempt err, e = .posted id run attempt err → isOpen run attempt log.events = false) :
    Recorded (log.add e) where
  sound := recorded.sound
  covers := fun saved run attempt opened =>
    recorded.covers (settled_plain plain ▸ saved) run attempt (isOpen_plain plain ▸ opened)
  unrepeated := unrepeated_cons recorded.unrepeated new

/-- Only what is read from GitHub's side changes. -/
theorem Recorded.congr {after : Log} (recorded : Recorded log) (stored : after.stored = log.stored)
    (events : after.events = log.events) : Recorded after := by
  obtain ⟨sound, covers, unrepeated⟩ := recorded
  refine ⟨stored ▸ sound, ?_, events ▸ unrepeated⟩
  rw [stored, events]
  exact covers

theorem Stage.Covers.add {events : List Event} (covers : stage.Covers events) (plain : e.plain = true) :
    stage.Covers (e :: events) := by
  cases stage with
  | idle => trivial
  | listing => exact (settled_plain plain).trans covers
  | running b todo turn =>
    exact ⟨covers.1, fun run attempt opened => covers.2.1 run attempt (isOpen_plain plain ▸ opened), covers.2.2⟩

end Plain

theorem Guarded.classify {b : Book} {id : String} {run : Int} {todo : List (String × Int)} {log : Log}
    {pr resolved : PendingRerun} {outcome : RerunOutcome} (marker : b.marker run = some pr)
    (guarded : Guarded ⟨.running b ((id, run) :: todo) (.reading (some (outcome, resolved))), log⟩) :
    Guarded ⟨if outcome = .confirmedHappened then .running (b.resolve run outcome resolved) todo .fresh
      else .running (b.resolve run outcome resolved) ((id, run) :: todo) .looked,
      log.add (.classified run pr.attempt outcome)⟩ := by
  obtain ⟨recorded, sound, covers, concludes⟩ := guarded
  have attempt : resolved.attempt = pr.attempt := concludes id run todo pr rfl marker
  cases outcome with
  | confirmedHappened =>
    refine ⟨recorded.add rfl (by simp), ?_⟩
    rw [if_pos rfl]
    refine ⟨sound.settle, fun other k opened => ?_, trivial⟩
    change (b.settle run resolved.attempt).Covers other k
    rw [attempt]
    exact (covers other k ((isOpen_plain rfl).symm.trans opened)).settle sound marker
  | stillAmbiguous =>
    refine ⟨recorded.add rfl (by simp), ?_⟩
    rw [if_neg (by simp)]
    refine ⟨sound.park (attempt.trans (sound run pr marker)), fun other k opened => ?_, trivial⟩
    refine (covers other k ((isOpen_plain rfl).symm.trans opened)).park fun held found => ?_
    cases marker.symm.trans found
    exact attempt
  | confirmedDidNotHappen =>
    -- the request is closed, so the maps need not account for it any longer
    have closed {other k : Int}
        (opened : isOpen other k (.classified run pr.attempt .confirmedDidNotHappen :: log.events) = true) :
        ¬ (other = run ∧ k = pr.attempt) ∧ isOpen other k log.events = true := by
      simp only [isOpen, Event.asks, Event.refutes, Bool.false_or, Bool.and_eq_true, Bool.not_eq_true', decide_true,
        Bool.and_true, Bool.and_eq_false_imp, decide_eq_true_eq, decide_eq_false_iff_not] at opened
      exact ⟨fun same => opened.1 same.1.symm same.2.symm, opened.2⟩
    refine ⟨⟨recorded.sound, fun saved other k opened => recorded.covers saved other k (closed opened).2,
      unrepeated_cons recorded.unrepeated (by simp)⟩, ?_⟩
    rw [if_neg (by simp)]
    refine ⟨sound.clear, fun other k opened => ?_, trivial⟩
    refine (covers other k (closed opened).2).clear fun held found => ?_
    cases marker.symm.trans found
    exact (closed opened).1

/-- Where the run has no unresolved request, the attempt after those counted is not open. -/
theorem isOpen_next {b : Book} {run : Int} {events : List Event}
    (covers : ∀ run attempt, isOpen run attempt events = true → b.Covers run attempt) (free : b.marker run = none) :
    isOpen run (b.count run + 1) events = false := by
  refine Bool.eq_false_iff.mpr fun opened => ?_
  obtain counted | ⟨pr, found, _⟩ := covers run _ opened
  · omega
  · rw [free] at found
    cases found

theorem Guarded.post {b : Book} {id : String} {run : Int} {todo : List (String × Int)} {log : Log} {turn : Turn}
    (jobID : Int) (reply : Option GoError) (asking : log.asking = (id, run, b.count run + 1)) (free : b.marker run = none)
    (guarded : Guarded ⟨.running b ((id, run) :: todo) turn, log⟩) :
    Guarded ⟨.running (b.request run jobID reply) todo .fresh, log.post run reply⟩ := by
  obtain ⟨recorded, sound, covers, _⟩ := guarded
  have events : (log.post run reply).events = .posted id run (b.count run + 1) reply :: log.events := by
    simp [Log.post, asking]
  have once : unrepeated (log.post run reply).events = true := by
    rw [events]
    refine unrepeated_cons recorded.unrepeated fun id' run' attempt' err same => ?_
    cases same
    exact isOpen_next covers free
  by_cases rejected : errorIs reply .rerunRejected = true
  · have plain : (Event.posted id run (b.count run + 1) reply).plain = true := rejected
    obtain ⟨e, rfl⟩ : ∃ e, reply = some e := by
      cases reply with
      | none => cases rejected
      | some e => exact ⟨e, rfl⟩
    have same : b.request run jobID (some e) = b := if_pos rejected
    rw [same]
    refine ⟨⟨recorded.sound, ?_, once⟩, sound, ?_, trivial⟩
    · rw [events, settled_plain plain]
      exact fun saved other k opened => recorded.covers saved other k (isOpen_plain plain ▸ opened)
    · rw [show State.log ⟨_, log.post run (some e)⟩ = log.post run (some e) from rfl, events]
      exact fun other k opened => covers other k (isOpen_plain plain ▸ opened)
  · have unsettled : settled (log.post run reply).events = false := by
      rw [events]
      simp [settled, rejected]
    refine ⟨⟨recorded.sound, fun saved => absurd saved (by simp [unsettled]), once⟩, ?_, fun other k opened => ?_, trivial⟩
    · cases reply with
      | none => exact sound.accept free
      | some e =>
        rw [show b.request run jobID (some e) = b.park run _ from if_neg rejected]
        exact sound.park rfl
    · rw [show State.log ⟨_, log.post run reply⟩ = log.post run reply from rfl, events] at opened
      -- either it is the new request or it was open before
      have mine : (other = run ∧ k = b.count run + 1) ∨ isOpen other k log.events = true := by
        simp only [isOpen, Event.asks, Event.refutes, Bool.not_false, Bool.true_and, Bool.or_eq_true, Bool.and_eq_true,
          decide_eq_true_eq] at opened
        exact opened.imp_left fun same => ⟨same.1.1.symm, same.1.2.symm⟩
      cases reply with
      | none =>
        obtain ⟨rfl, rfl⟩ | opened := mine
        · exact .inl (by rw [Book.request, count_accept])
        · exact (covers other k opened).accept
      | some e =>
        rw [show b.request run jobID (some e) = b.park run _ from if_neg rejected]
        obtain ⟨rfl, rfl⟩ | opened := mine
        · exact .inr ⟨_, marker_park, rfl⟩
        · refine (covers other k opened).park fun held found => ?_
          rw [free] at found
          cases found

theorem Guarded.step {c : Conditions} {name : String} {s after : State} (guarded : Guarded s)
    (heeds : Heeds settled after.log.events = true) (step : Step c name s after) : Guarded after := by
  obtain ⟨recorded, covers⟩ := guarded
  cases step with
  | start => exact ⟨recorded.add rfl (by simp), (settled_plain rfl).trans (Bool.and_elim_left heeds)⟩
  | crash => exact ⟨recorded, trivial⟩
  | load => exact ⟨recorded, recorded.sound, recorded.covers covers, trivial⟩
  | record => exact ⟨recorded.add rfl (by simp), covers.add rfl⟩
  | announce => exact ⟨recorded.congr rfl rfl, covers⟩
  | @readNext b id run todo log pr reply marker =>
    refine ⟨(recorded.add (e := .read run (pr.attempt + 1) reply) rfl (by simp)).congr rfl rfl, covers.1,
      fun other k opened => covers.2.1 other k ((isOpen_plain rfl).symm.trans opened), ?_⟩
    cases answered : answeredNext pr reply with
    | none => trivial
    | some result =>
      intro id' run' rest held same found
      cases same
      cases marker.symm.trans found
      rw [(answeredNext_spec answered).1]
  | @readOwn b id run todo log pr reply marker =>
    refine ⟨(recorded.add (e := .read run pr.attempt reply) rfl (by simp)).congr rfl rfl, covers.1,
      fun other k opened => covers.2.1 other k ((isOpen_plain rfl).symm.trans opened), fun id' run' rest held same found => ?_⟩
    cases same
    cases marker.symm.trans found
    exact answeredOwn_attempt pr reply
  | classify marker => exact Guarded.classify marker ⟨recorded, covers⟩
  | unmarked => exact ⟨recorded, covers.1, covers.2.1, trivial⟩
  | @evaluate b id run todo log reply =>
    exact ⟨(recorded.add (e := .read run (b.count run + 1) reply) rfl (by simp)).congr rfl rfl, covers.1,
      fun other k opened => covers.2.1 other k ((isOpen_plain rfl).symm.trans opened), trivial⟩
  | skip => exact ⟨recorded, covers.1, covers.2.1, trivial⟩
  | post jobID reply asking free => exact Guarded.post jobID reply asking free ⟨recorded, covers⟩
  | save =>
    -- now the stored maps account for every open request
    exact ⟨⟨covers.1, fun _ => covers.2.1, unrepeated_cons recorded.unrepeated (by simp)⟩, trivial⟩
  | land => exact ⟨recorded.congr rfl rfl, covers⟩

theorem guarded_initial : Guarded {} := by
  refine ⟨⟨fun run pr marker => ?_, fun _ run attempt opened => ?_, rfl⟩, trivial⟩
  · cases marker
  · cases opened

/-! ## Runs -/

/-- As long as every pass starts after a pass's own save since the last request that was
    not rejected, no request is made while one for the same run and attempt is open. -/
theorem reruns_unrepeated {p : Passes} {system : System Api Site (Option GoError)} (run : p.Run system)
    (saved : Heeds settled system.world.history.events = true) : unrepeated system.world.history.events = true := by
  -- the log of the passes is the log of a run of the machine
  obtain ⟨stage, reached⟩ := (run_reachable run).staged
  exact (Reachable.invariant_of_heeds guarded_initial (fun _ _ guarded heeds step => guarded.step heeds step) reached
    saved).recorded.unrepeated

/-- A scale set whose policy admits one retry. -/
def retrying : Operator where
  config := {
    name := "ci", requirements := { providers := [] }
    retry := { enabled := true, maxRetries := 1, acknowledgeRepeatedEffects := true } }
  gitHubJobs := true

def retryingPasses : Passes := .madeBy retrying {} trivial

/-- The job of an allocation failed in the first attempt, and there is no other attempt. -/
def oneAttempt (request : ApiRequest) (err : Option GoError) : ApiReply request :=
  match request with
  | .attemptJobs _ _ run attempt =>
    if attempt = 1 then
      .ok [{ id := 1, runID := run, attempt := 1, runnerName := "rs-a", status := "completed", conclusion := "failure" }]
    else .error ⟨[.attemptNotFound], "attempt not found"⟩
  | .rerunFailedJobs _ _ _ => err
  | request => silence request

/-- GitHub accepts every request. -/
def requestsAccepted (request : ApiRequest) (_ : Site) : ApiReply request := oneAttempt request none

/-- The answer to every request is lost. -/
def requestsLost (request : ApiRequest) (_ : Site) : ApiReply request := oneAttempt request (some (.new "timeout"))

theorem retryingPasses_allow (reply : (request : ApiRequest) → Site → ApiReply request) (w : Site) (request : ApiRequest) :
    retryingPasses.conditions.allow w.history request (reply request w) := by
  cases request <;> trivial

/-- The process dies between the request and the save of the fleet. -/
def dyingRun : System Api Site (Option GoError) :=
  retryingPasses.played (retryingPasses.script (fun _ _ => false) requestsAccepted
    (retryingPasses_allow requestsAccepted)) [("rs-a", 7)] [(0, 7), (1, 100)]

/-- GitHub accepted the request, and the next pass makes it again. -/
theorem rerun_repeated : retryingPasses.Run dyingRun ∧ unrepeated dyingRun.world.history.events = false :=
  ⟨Passes.played_run _ _ _ (stocked_initial _ (by decide) (fun _ impossible => impossible.elim)), by decide +kernel⟩

/-- The answer to the request is lost; three passes later it is found not to have
    happened, and made again. -/
def patientRun : System Api Site (Option GoError) :=
  retryingPasses.played (retryingPasses.script (fun _ _ => false) requestsLost (retryingPasses_allow requestsLost))
    [("rs-a", 7)]
    [(0, 100), (1, 100), (2, 100), (3, 100)]

theorem reruns_unrepeated_patientRun :
    (patientRun.world.history.events.countP (Event.asks 7 1) = 2) ∧ unrepeated patientRun.world.history.events = true :=
  ⟨by decide +kernel, reruns_unrepeated
    (Passes.played_run _ _ _ (stocked_initial _ (by decide) (fun _ impossible => impossible.elim))) (by decide +kernel)⟩

end RunnerScout.Reruns
