import RunnerScout.Reruns.Repeats

/-! # What it takes to find that a rerun did not happen

A history falls into passes.  A pass consults GitHub about an unresolved request when
it asks for the attempt after it; it agrees when it asks once, that attempt does not
exist, and the recorded job reads back as a completed failure.  The passes refute a
request after three agreeing ones in a row, provided that no two interrupted
allocations share the run, that the passes that consulted GitHub were saved, and that
once the count has begun GitHub's answers are conclusive.
-/

namespace RunnerScout.Reruns

open Interaction Operator Recovery RunnerScout.State

/-! ## Passes of a history -/

/-- The passes of a history, the latest first, each with its events, the latest first.
    The last one is what came before any pass. -/
def passes : List Event → List (List Event)
  | [] => [[]]
  | .started :: older => [] :: passes older
  | e :: older =>
    match passes older with
    | [] => [[e]]
    | latest :: earlier => (e :: latest) :: earlier

def Event.reads (run : Int) : Event → Bool
  | .read r _ _ => r = run
  | _ => false

/-- GitHub is asked about an attempt. -/
def Event.consults (run attempt : Int) : Event → Bool
  | .read r k _ => r = run && k = attempt
  | _ => false

/-- The next attempt does not exist, and then the recorded job reads back as a completed
    failure of the attempt itself. -/
def agrees (run attempt jobID : Int) : Event → Event → Bool
  | .read r k (.ok jobs), .read r' k' reply =>
    r = run && k = attempt && r' = run && k' = attempt + 1 && notFound reply &&
      jobs.any fun j => j.id = jobID && j.failed
  | _, _ => false

/-- The pass asks about the next attempt once, and agrees. -/
def agreeing (run attempt jobID : Int) (pass : List Event) : Bool :=
  pass.countP (Event.consults run (attempt + 1)) = 1 &&
    (pass.zip pass.tail).any fun pair => agrees run attempt jobID pair.1 pair.2

/-- The pass asks about the attempt after the requested one. -/
def consulting (run attempt : Int) (pass : List Event) : Bool := pass.any (Event.consults run (attempt + 1))

def consulted (run attempt : Int) (events : List Event) : List (List Event) :=
  (passes events).filter (consulting run attempt)

/-- The last passes that asked about the next attempt agree. -/
def streak (run attempt jobID : Int) (length : Nat) (events : List Event) : Bool :=
  length ≤ (consulted run attempt events).length &&
    ((consulted run attempt events).take length).all (agreeing run attempt jobID)

/-- The unresolved request of a run that was saved last. -/
def storedMarker (name : String) (run : Int) : List Event → Option PendingRerun
  | [] => none
  | .saved _ after :: _ => (after.fleet name).pendingReruns.lookup run
  | _ :: older => storedMarker name run older

/-- Every request of the run found not to have happened was the recorded one, after as
    many agreeing passes as it takes. -/
def confirmed (name : String) (run : Int) : List Event → Bool
  | [] => true
  | .classified r k outcome :: older =>
    (!(r = run && outcome = .confirmedDidNotHappen) || (storedMarker name run older).any fun pr =>
      pr.attempt = k && streak run k pr.jobID rerunReconciliationPolls.toNat older) && confirmed name run older
  | _ :: older => confirmed name run older

/-! ## Conditions -/

/-- Whatever was asked about the run was followed by a pass's own save at its end. -/
def unread (run : Int) : List Event → Bool
  | [] => true
  | .saved _ _ :: _ => true
  | e :: older => !e.reads run && unread run older

/-- Once the count has begun, an answer about the next attempt is that it does not exist
    or has jobs, and the attempt itself can then be read. -/
def Conclusive (log : Log) (run attempt : Int) (reply : Except GoError (List RESTJob)) : Prop :=
  ∀ pr, log.stored.marker run = some pr → 0 < pr.notFoundPolls →
    (attempt = pr.attempt + 1 → notFound reply = true ∨ ∃ jobs, reply = .ok jobs ∧ 0 < jobs.length) ∧
    (attempt = pr.attempt → (∃ missing older, log.events = .read run (pr.attempt + 1) missing :: older) →
      ∃ jobs, reply = .ok jobs)

/-! ## Streaks -/

section Streaks

variable {run attempt jobID : Int} {length : Nat} {e later earlier : Event} {events : List Event}

/-- What an event inside a pass does to the passes. -/
theorem passes_inside (inside : e ≠ .started) : passes (e :: events) = match passes events with
    | [] => [[e]]
    | latest :: earlier => (e :: latest) :: earlier := by
  cases e with
  | started => exact absurd rfl inside
  | read | classified | posted | saved | recorded => rfl

theorem passes_ne_nil (events : List Event) : passes events ≠ [] := by
  match events with
  | [] => exact List.cons_ne_nil _ _
  | e :: older =>
    by_cases inside : e = .started
    · subst inside
      exact List.cons_ne_nil _ _
    · rw [passes_inside inside]
      split <;> exact List.cons_ne_nil _ _

/-- The pass under way. -/
def current (events : List Event) : List Event := (passes events).headI

theorem passes_eq (events : List Event) : passes events = current events :: (passes events).tail := by
  unfold current
  cases parts : passes events with
  | nil => exact absurd parts (passes_ne_nil events)
  | cons latest earlier => rfl

theorem passes_cons (inside : e ≠ .started) : passes (e :: events) = (e :: current events) :: (passes events).tail := by
  rw [passes_inside inside, passes_eq events]
  rfl

/-- An agreeing pass still agrees after anything but another question. -/
theorem agreeing_cons (agrees : agreeing run attempt jobID events = true)
    (other : e.consults run (attempt + 1) = false) : agreeing run attempt jobID (e :: events) = true := by
  simp only [agreeing, Bool.and_eq_true, decide_eq_true_eq] at agrees ⊢
  refine ⟨by simp [other, agrees.1], ?_⟩
  cases events with
  | nil => simp at agrees
  | cons first rest =>
    rw [List.tail_cons, List.zip_cons_cons, List.any_cons, Bool.or_eq_true]
    exact .inr agrees.2

theorem streak_zero : streak run attempt jobID 0 events = true := by simp [streak]

theorem streak_succ {latest : List Event} {found : List (List Event)}
    (consults : consulted run attempt events = latest :: found) :
    streak run attempt jobID (length + 1) events = true ↔ agreeing run attempt jobID latest = true ∧
      length ≤ found.length ∧ (found.take length).all (agreeing run attempt jobID) = true := by
  simp only [streak, consults, List.length_cons, List.take_succ_cons, List.all_cons, Bool.and_eq_true, decide_eq_true_eq,
    Nat.add_le_add_iff_right]
  tauto

/-- A streak lasts until GitHub is asked again. -/
theorem streak_cons (held : streak run attempt jobID length events = true)
    (other : e.consults run (attempt + 1) = false) : streak run attempt jobID length (e :: events) = true := by
  by_cases start : e = .started
  · subst start
    exact held
  have before : consulted run attempt events =
      (current events :: (passes events).tail).filter (consulting run attempt) := by
    rw [consulted, ← passes_eq]
  have after : consulted run attempt (e :: events) =
      ((e :: current events) :: (passes events).tail).filter (consulting run attempt) := by
    rw [consulted, passes_cons start]
  have same : consulting run attempt (e :: current events) = consulting run attempt (current events) := by
    simp [consulting, other]
  by_cases asked : consulting run attempt (current events) = true
  · rw [List.filter_cons_of_pos asked] at before
    rw [List.filter_cons_of_pos (same.trans asked)] at after
    cases length with
    | zero => exact streak_zero
    | succ length =>
      rw [streak_succ before] at held
      exact (streak_succ after).mpr ⟨agreeing_cons held.1 other, held.2⟩
  · rw [List.filter_cons_of_neg asked] at before
    rw [List.filter_cons_of_neg (same ▸ asked)] at after
    rw [streak, after, ← before]
    exact held

/-- An agreeing pair in a pass that had not asked before makes the streak longer. -/
theorem streak_agrees (held : streak run attempt jobID length events = true)
    (agree : agrees run attempt jobID later earlier = true)
    (unasked : consulting run attempt (current events) = false) :
    streak run attempt jobID (length + 1) (later :: earlier :: events) = true := by
  obtain ⟨own, next, asks, silent⟩ : later ≠ .started ∧ earlier ≠ .started ∧
      earlier.consults run (attempt + 1) = true ∧ later.consults run (attempt + 1) = false := by
    cases later with
    | read r k reply =>
      cases reply with
      | error e => cases agree
      | ok jobs =>
        cases earlier with
        | read r' k' reply' =>
          simp only [agrees, Bool.and_eq_true, decide_eq_true_eq] at agree
          obtain ⟨⟨⟨⟨⟨_, here⟩, same⟩, next⟩, _⟩, _⟩ := agree
          refine ⟨by simp, by simp, by simp [Event.consults, same, next], ?_⟩
          simp only [Event.consults, here]
          simp
        | started | classified | posted | saved | recorded => cases agree
    | started | classified | posted | saved | recorded => cases agree
  have inside : passes (later :: earlier :: events) = (later :: earlier :: current events) :: (passes events).tail := by
    rw [passes_cons own, current, passes_cons next]
    rfl
  have before : consulted run attempt events =
      (passes events).tail.filter (consulting run attempt) := by
    rw [consulted, passes_eq, List.filter_cons_of_neg (by rw [unasked]; exact Bool.false_ne_true)]
    rfl
  have after : consulted run attempt (later :: earlier :: events) =
      (later :: earlier :: current events) :: consulted run attempt events := by
    rw [before, consulted, inside, List.filter_cons_of_pos (by simp [consulting, asks])]
  refine (streak_succ after).mpr ⟨?_, by simpa [streak] using held⟩
  have none : (current events).countP (Event.consults run (attempt + 1)) = 0 := by
    rw [List.countP_eq_zero]
    simpa [consulting] using unasked
  simp [agreeing, agree, asks, silent, none]

end Streaks

/-! ## The invariant -/

/-- The poll count of a request is the length of its streak. -/
structure Tracks (run : Int) (events : List Event) (pr : PendingRerun) : Prop where
  nonneg : 0 ≤ pr.notFoundPolls
  below : pr.notFoundPolls < rerunReconciliationPolls
  streak : streak run pr.attempt pr.jobID pr.notFoundPolls.toNat events = true

section Tracks

variable {run : Int} {events : List Event} {pr : PendingRerun} {e : Event}

theorem tracks_zero (none : pr.notFoundPolls = 0) : Tracks run events pr where
  nonneg := by rw [none]
  below := by rw [none]; decide
  streak := by rw [none]; exact streak_zero

theorem Tracks.cons (tracks : Tracks run events pr) (other : e.consults run (pr.attempt + 1) = false) :
    Tracks run (e :: events) pr := { tracks with streak := streak_cons tracks.streak other }

theorem consults_of_reads {attempt : Int} (other : e.reads run = false) : e.consults run attempt = false := by
  cases e with
  | read r k reply => simp [Event.consults, show r ≠ run by simpa [Event.reads] using other]
  | started | classified | posted | saved | recorded => rfl

end Tracks

/-- The pass has not asked about the run yet, and holds what is stored. -/
structure Untouched (run : Int) (b stored : Book) (events : List Event) : Prop where
  marker : b.marker run = stored.marker run
  tracks : ∀ pr, b.marker run = some pr → Tracks run events pr
  unread : (current events).any (Event.reads run) = false

/-- The run is still to come, or its request is as the streak has it. -/
def Waits (run : Int) (b stored : Book) (events : List Event) (todo : List (String × Int)) : Prop :=
  (run ∈ todo.map Prod.snd → Untouched run b stored events) ∧
    (run ∉ todo.map Prod.snd → ∀ pr, b.marker run = some pr → Tracks run events pr)

/-- GitHub does not know the next attempt. -/
def Asked (run : Int) (b stored : Book) (events : List Event) : Prop :=
  ∀ pr, b.marker run = some pr → stored.marker run = some pr ∧
    ∃ reply older, events = .read run (pr.attempt + 1) reply :: older ∧ notFound reply = true ∧ Tracks run older pr ∧
      consulting run pr.attempt (current older) = false

def Concluded (run : Int) (b stored : Book) (events : List Event) (outcome : RerunOutcome) (resolved : PendingRerun) : Prop :=
  ∀ pr, b.marker run = some pr → stored.marker run = some pr ∧
    (outcome = .confirmedDidNotHappen →
      streak run pr.attempt pr.jobID rerunReconciliationPolls.toNat events = true) ∧
    (outcome = .stillAmbiguous → Tracks run events resolved)

def Turn.Tracks (run : Int) (b stored : Book) (events : List Event) (todo : List (String × Int)) : Turn → Prop
  | .fresh => Waits run b stored events todo
  | .looked => Waits run b stored events todo.tail
  | .reading none => ∀ id r rest, todo = (id, r) :: rest →
    (r = run → Asked run b stored events) ∧ (r ≠ run → Waits run b stored events rest)
  | .reading (some (outcome, resolved)) => ∀ id r rest, todo = (id, r) :: rest →
    (r = run → Concluded run b stored events outcome resolved) ∧ (r ≠ run → Waits run b stored events rest)

def Stage.Tracks (run : Int) (stored : Book) (events : List Event) : Stage → Prop
  | .idle => True
  | .listing => unread run events = true ∧ (current events).any (Event.reads run) = false
  | .running b todo turn => b.Sound ∧ turn.Concludes b todo ∧ (todo.map Prod.snd).count run ≤ 1 ∧
      turn.Tracks run b stored events todo

/-- What the stored maps and the history keep. -/
structure Logged (name : String) (run : Int) (stored : Book) (events : List Event) : Prop where
  sound : stored.Sound
  marker : storedMarker name run events = stored.marker run
  tracked : unread run events = true → ∀ pr, stored.marker run = some pr → Tracks run events pr
  confirmed : confirmed name run events = true

structure Followed (name : String) (run : Int) (s : State) : Prop where
  logged : Logged name run s.log.stored s.log.events
  stage : s.stage.Tracks run s.log.stored s.log.events

section Events

variable {name : String} {run : Int} {b stored : Book} {events : List Event} {todo : List (String × Int)} {e : Event}

theorem current_cons (inside : e ≠ .started) : current (e :: events) = e :: current events := by
  rw [current, passes_cons inside]
  rfl

theorem Logged.cons (logged : Logged name run stored events) (unsaved : ∀ before after, e ≠ .saved before after)
    (confirms : ∀ attempt, e ≠ .classified run attempt .confirmedDidNotHappen) :
    Logged name run stored (e :: events) where
  sound := logged.sound
  marker := by
    refine Eq.trans ?_ logged.marker
    cases e with
    | saved before after => exact absurd rfl (unsaved before after)
    | started | read | classified | posted | recorded => rfl
  tracked := by
    intro still pr marker
    have unfolded : unread run (e :: events) = (!e.reads run && unread run events) := by
      cases e with
      | saved before after => exact absurd rfl (unsaved before after)
      | started | read | classified | posted | recorded => rfl
    rw [unfolded, Bool.and_eq_true, Bool.not_eq_true'] at still
    exact (logged.tracked still.2 pr marker).cons (consults_of_reads still.1)
  confirmed := by
    cases e with
    | classified r k outcome =>
      have other : ¬ (r = run ∧ outcome = .confirmedDidNotHappen) := by
        rintro ⟨rfl, rfl⟩
        exact confirms k rfl
      simp only [Reruns.confirmed, logged.confirmed, Bool.and_true, Bool.or_eq_true, Bool.not_eq_true',
        Bool.and_eq_false_iff, decide_eq_false_iff_not]
      exact .inl (not_and_or.mp other)
    | started | read | posted | saved | recorded => exact logged.confirmed

theorem Untouched.cons (untouched : Untouched run b stored events) (inside : e ≠ .started)
    (other : e.reads run = false) : Untouched run b stored (e :: events) where
  marker := untouched.marker
  tracks := fun pr marker => (untouched.tracks pr marker).cons (consults_of_reads other)
  unread := by
    rw [current_cons inside]
    simp only [List.any_cons, other, Bool.false_or]
    exact untouched.unread

theorem Waits.cons (waits : Waits run b stored events todo) (inside : e ≠ .started) (other : e.reads run = false) :
    Waits run b stored (e :: events) todo :=
  ⟨fun ahead => (waits.1 ahead).cons inside other,
    fun past pr marker => (waits.2 past pr marker).cons (consults_of_reads other)⟩

theorem Waits.of_marker {after : Book} (waits : Waits run b stored events todo)
    (same : after.marker run = b.marker run) : Waits run after stored events todo := by
  refine ⟨fun ahead => ?_, fun past => ?_⟩
  · obtain ⟨marker, tracks, unread⟩ := waits.1 ahead
    exact ⟨same.trans marker, same ▸ tracks, unread⟩
  · rw [same]
    exact waits.2 past

theorem Waits.next {id : String} {r : Int} (waits : Waits run b stored events ((id, r) :: todo)) (different : r ≠ run) :
    Waits run b stored events todo := by
  have same : run ∈ ((id, r) :: todo).map Prod.snd ↔ run ∈ todo.map Prod.snd := by
    simp [Ne.symm different]
  unfold Waits at waits
  rw [same] at waits
  exact waits

/-- Nothing of the run is left to come. -/
theorem waits_past (past : run ∉ todo.map Prod.snd) (tracks : ∀ pr, b.marker run = some pr → Tracks run events pr) :
    Waits run b stored events todo := ⟨fun ahead => absurd ahead past, fun _ => tracks⟩

theorem past_of_count {id : String} (once : (((id, run) :: todo).map Prod.snd).count run ≤ 1) :
    run ∉ todo.map Prod.snd := by
  rw [List.map_cons, List.count_cons_self] at once
  exact List.count_eq_zero.mp (by omega)

theorem count_tail {first : String × Int} (once : ((first :: todo).map Prod.snd).count run ≤ 1) :
    (todo.map Prod.snd).count run ≤ 1 :=
  (List.Sublist.count_le run ((List.sublist_cons_self first todo).map Prod.snd)).trans once

end Events

section Steps

variable {name : String} {run r : Int} {b stored : Book} {id : String} {todo : List (String × Int)} {log : Log}
  {events : List Event} {pr resolved : PendingRerun} {outcome : RerunOutcome} {reply : Except GoError (List RESTJob)}

/-- An inconclusive answer is given only before the count has begun. -/
theorem answeredNext_ambiguous (conclusive : Conclusive log run (pr.attempt + 1) reply)
    (marker : log.stored.marker run = some pr) (nonneg : 0 ≤ pr.notFoundPolls)
    (answered : answeredNext pr reply = some (.stillAmbiguous, resolved)) : pr.notFoundPolls = 0 := by
  by_contra begun
  obtain missing | ⟨jobs, rfl, jobsFound⟩ := (conclusive pr marker (by omega)).1 rfl
  · rw [answeredNext_none.mpr missing] at answered
    cases answered
  · simp [answeredNext, jobsFound] at answered

theorem Waits.readNext (waits : Waits run b log.stored log.events ((id, r) :: todo)) (marker : b.marker r = some pr)
    (conclusive : r = run → Conclusive log run (pr.attempt + 1) reply) :
    Turn.Tracks run b log.stored (.read r (pr.attempt + 1) reply :: log.events) ((id, r) :: todo)
      (.reading (answeredNext pr reply)) := by
  have passes (different : r ≠ run) : Waits run b log.stored (.read r (pr.attempt + 1) reply :: log.events) todo :=
    (waits.next different).cons (by simp) (by simp [Event.reads, different])
  have here (same : r = run) : Untouched run b log.stored log.events := waits.1 (by simp [same])
  cases answered : answeredNext pr reply with
  | none =>
    intro id' r' rest first
    cases first
    refine ⟨fun same held found => ?_, passes⟩
    subst same
    cases marker.symm.trans found
    have untouched := here rfl
    refine ⟨untouched.marker ▸ marker, reply, log.events, rfl, answeredNext_none.mp answered, untouched.tracks pr marker, ?_⟩
    rw [consulting, List.any_eq_false]
    intro e member consults
    have silent := List.any_eq_false.mp untouched.unread e member
    rw [consults_of_reads (by simpa using silent)] at consults
    cases consults
  | some result =>
    obtain ⟨outcome, resolved⟩ := result
    obtain ⟨rfl, happens⟩ := answeredNext_spec answered
    intro id' r' rest first
    cases first
    refine ⟨fun same held found => ?_, passes⟩
    subst same
    cases marker.symm.trans found
    have untouched := here rfl
    have recorded : log.stored.marker r = some resolved := untouched.marker ▸ marker
    refine ⟨recorded, fun refuted => absurd refuted happens, ?_⟩
    rintro rfl
    exact tracks_zero (answeredNext_ambiguous (conclusive rfl) recorded (untouched.tracks resolved marker).nonneg answered)

/-- What the answer about the attempt itself makes of a streak. -/
theorem concluded_own (asked : Asked run b log.stored log.events) (marker : b.marker run = some pr)
    (conclusive : Conclusive log run pr.attempt reply) :
    Concluded run b log.stored (.read run pr.attempt reply :: log.events) (answeredOwn pr reply).1
      (answeredOwn pr reply).2 := by
  intro held found
  cases marker.symm.trans found
  obtain ⟨recorded, missing, older, events, absent, tracks, unasked⟩ := asked pr marker
  refine ⟨recorded, ?_⟩
  cases reply with
  | error e =>
    -- the attempt could not be read, so the count has not begun
    refine ⟨fun refuted => (by cases refuted), fun _ => tracks_zero ?_⟩
    by_contra begun
    have nonneg := tracks.nonneg
    obtain ⟨jobs, impossible⟩ := (conclusive pr recorded (by change pr.notFoundPolls ≠ 0 at begun; omega)).2 rfl
      ⟨missing, older, events⟩
    cases impossible
  | ok jobs =>
    by_cases still : (jobs.any fun j => j.id = pr.jobID && j.failed) = true
    · have longer : streak run pr.attempt pr.jobID (pr.notFoundPolls.toNat + 1) (.read run pr.attempt (.ok jobs) :: log.events) =
          true := by
        rw [events]
        exact streak_agrees tracks.streak (by simp only [agrees, absent, still]; simp) unasked
      have nonneg := tracks.nonneg
      have below := tracks.below
      have counted : (pr.notFoundPolls + 1).toNat = pr.notFoundPolls.toNat + 1 := by omega
      simp only [answeredOwn, still, if_true]
      refine ⟨fun refuted => ?_, fun ambiguous => ⟨?_, ?_, ?_⟩⟩
      · have reached : pr.notFoundPolls + 1 ≥ rerunReconciliationPolls := by
          by_contra short
          rw [if_neg short] at refuted
          cases refuted
        rw [show rerunReconciliationPolls.toNat = pr.notFoundPolls.toNat + 1 by omega]
        exact longer
      · change 0 ≤ pr.notFoundPolls + 1
        omega
      · by_contra reached
        rw [if_pos (not_lt.mp reached)] at ambiguous
        cases ambiguous
      · change streak run pr.attempt pr.jobID (pr.notFoundPolls + 1).toNat _ = true
        rw [counted]
        exact longer
    · simp only [answeredOwn, still]
      exact ⟨fun refuted => (by cases refuted), fun _ => tracks_zero rfl⟩

/-- The maps after a conclusion about the run. -/
theorem concluded_tracks (concluded : Concluded run b stored events outcome resolved) (marker : b.marker run = some pr)
    (e : Event) (plain : e.reads run = false) (held : PendingRerun)
    (found : (b.resolve run outcome resolved).marker run = some held) : Tracks run (e :: events) held := by
  cases outcome with
  | confirmedHappened | confirmedDidNotHappen => simp [Book.resolve] at found
  | stillAmbiguous =>
    rw [Book.resolve, marker_park, Option.some_inj] at found
    exact found ▸ ((concluded pr marker).2.2 rfl).cons (consults_of_reads plain)

theorem marker_resolve_ne (different : run ≠ r) : (b.resolve r outcome resolved).marker run = b.marker run := by
  cases outcome with
  | confirmedHappened => exact marker_settle_ne different
  | confirmedDidNotHappen => exact marker_clear_ne different
  | stillAmbiguous => exact marker_park_ne different

theorem Book.Sound.resolve (sound : b.Sound) (marker : b.marker r = some pr) (same : resolved.attempt = pr.attempt) :
    (b.resolve r outcome resolved).Sound := by
  cases outcome with
  | confirmedHappened => exact sound.settle
  | confirmedDidNotHappen => exact sound.clear
  | stillAmbiguous => exact sound.park (same.trans (sound r pr marker))

theorem Book.Sound.request (sound : b.Sound) (free : b.marker r = none) (jobID : Int) (err : Option GoError) :
    (b.request r jobID err).Sound := by
  cases err with
  | none => exact sound.accept free
  | some e =>
    rw [Book.request]
    split
    · exact sound
    · exact sound.park rfl

/-- A new request starts a new count. -/
theorem request_tracks (free : b.marker run = none) (jobID : Int) (err : Option GoError) (held : PendingRerun)
    (found : (b.request run jobID err).marker run = some held) : Tracks run events held := by
  cases err with
  | none =>
    rw [Book.request, marker_accept, free] at found
    cases found
  | some e =>
    rw [Book.request] at found
    split at found
    · rw [free] at found
      cases found
    · rw [marker_park, Option.some_inj] at found
      exact tracks_zero (found ▸ rfl)

theorem marker_request_ne (different : run ≠ r) (jobID : Int) (err : Option GoError) :
    (b.request r jobID err).marker run = b.marker run := by
  cases err with
  | none => rfl
  | some e =>
    rw [Book.request]
    split
    · rfl
    · exact marker_park_ne different

/-- The request is looked at: the turn of the run is over, that of another goes on. -/
theorem Logged.classify (logged : Logged name run log.stored log.events) (marker : b.marker r = some pr)
    (concluded : r = run → Concluded run b log.stored log.events outcome resolved) :
    Logged name run log.stored (.classified r pr.attempt outcome :: log.events) := by
  by_cases refuted : r = run ∧ outcome = .confirmedDidNotHappen
  swap
  · refine logged.cons (by simp) fun attempt same => refuted ?_
    cases same
    exact ⟨rfl, rfl⟩
  obtain ⟨rfl, rfl⟩ := refuted
  obtain ⟨recorded, streak, _⟩ := concluded rfl pr marker
  refine ⟨logged.sound, logged.marker, fun still pr found => ?_, ?_⟩
  · exact (logged.tracked still pr found).cons rfl
  · simp [Reruns.confirmed, logged.marker, recorded, streak rfl, logged.confirmed]

theorem Followed.step {c : Conditions} (single : c.single run)
    (conclusive : ∀ log k reply, c.answers log run k reply → Conclusive log run k reply) {s after : State}
    (followed : Followed name run s) (heeds : Heeds (unread run) after.log.events = true) (step : Step c name s after) :
    Followed name run after := by
  obtain ⟨logged, stage⟩ := followed
  cases step with
  | start => exact ⟨logged.cons (by simp) (by simp), Bool.and_elim_left heeds, rfl⟩
  | crash => exact ⟨logged, trivial⟩
  | load _ _ once =>
    have tracks := logged.tracked stage.1
    exact ⟨logged, logged.sound, trivial, once run single, fun _ => ⟨rfl, tracks, stage.2⟩, fun _ => tracks⟩
  | @record current log first last writes _ =>
    refine ⟨logged.cons (by simp) (by simp), ?_⟩
    match current, stage, writes with
    | .listing, stage, _ =>
      exact ⟨stage.1, (congrArg (fun pass => pass.any (Event.reads run)) (current_cons (by simp))).trans stage.2⟩
    | .running b todo .fresh, ⟨sound, concludes, once, waits⟩, _ =>
      exact ⟨sound, concludes, once, Waits.cons waits (by simp) rfl⟩
  | announce asking => exact ⟨logged, stage⟩
  | @readNext b id r todo log pr reply marker allowed =>
    obtain ⟨sound, _, once, waits⟩ := stage
    refine ⟨logged.cons (by simp) (by simp), sound, ?_, once, waits.readNext marker fun same => ?_⟩
    · cases answered : answeredNext pr reply with
      | none => trivial
      | some result =>
        intro id' run' rest held same found
        cases same
        cases marker.symm.trans found
        rw [(answeredNext_spec answered).1]
    · subst same
      exact conclusive _ _ _ allowed
  | @readOwn b id r todo log pr reply marker allowed =>
    obtain ⟨sound, _, once, tracks⟩ := stage
    obtain ⟨mine, others⟩ := tracks id r todo rfl
    refine ⟨logged.cons (by simp) (by simp), sound, fun id' run' rest held same found => ?_, once,
      fun id' r' rest same => ?_⟩
    · cases same
      cases marker.symm.trans found
      exact answeredOwn_attempt pr reply
    · cases same
      refine ⟨fun same => ?_, fun different => (others different).cons (by simp) (by simp [Event.reads, different])⟩
      subst same
      exact concluded_own (mine rfl) marker (conclusive _ _ _ allowed)
  | @classify b id r todo log pr resolved outcome marker =>
    obtain ⟨sound, concludes, once, tracks⟩ := stage
    obtain ⟨mine, others⟩ := tracks id r todo rfl
    have kept : (b.resolve r outcome resolved).Sound := sound.resolve marker (concludes id r todo pr rfl marker)
    have waits : Waits run (b.resolve r outcome resolved) log.stored (.classified r pr.attempt outcome :: log.events) todo := by
      by_cases same : r = run
      · subst same
        -- no other allocation of the pass is part of the run
        exact waits_past (past_of_count once) (concluded_tracks (mine rfl) marker _ rfl)
      · exact ((others same).cons (by simp) rfl).of_marker (marker_resolve_ne (Ne.symm same))
    refine ⟨logged.classify marker mine, ?_⟩
    split
    · exact ⟨kept, trivial, count_tail once, waits⟩
    · exact ⟨kept, trivial, once, waits⟩
  | @unmarked b id r todo log free =>
    obtain ⟨sound, _, once, waits⟩ := stage
    refine ⟨logged, sound, trivial, once, ?_⟩
    by_cases same : r = run
    · subst same
      exact waits_past (past_of_count once) fun pr found => by rw [free] at found; cases found
    · exact waits.next same
  | @evaluate b id r todo log reply _ =>
    obtain ⟨sound, _, once, waits⟩ := stage
    refine ⟨logged.cons (by simp) (by simp), sound, trivial, once, ?_⟩
    by_cases same : r = run
    · subst same
      -- the attempt read is the one requested, not the one after it
      refine waits_past (past_of_count once) fun pr found => (waits.2 (past_of_count once) pr found).cons ?_
      simp [Event.consults, sound r pr found]
    · exact waits.cons (by simp) (by simp [Event.reads, same])
  | skip => exact ⟨logged, stage.1, trivial, count_tail stage.2.2.1, stage.2.2.2⟩
  | @post b id r most todo log jobID err asking free _ _ =>
    obtain ⟨sound, _, once, waits⟩ := stage
    refine ⟨logged.cons (by simp) (by simp), sound.request free jobID err, trivial, count_tail once, ?_⟩
    by_cases same : r = run
    · subst same
      exact waits_past (past_of_count once) (request_tracks free jobID err)
    · exact (Waits.cons waits (by simp) rfl).of_marker (marker_request_ne (Ne.symm same) jobID err)
  | @save b log first last _ latter _ =>
    obtain ⟨sound, _, _, waits⟩ := stage
    refine ⟨⟨sound, ?_, fun _ pr found => ?_, logged.confirmed⟩, trivial⟩
    · exact congrArg (fun b => b.marker run) latter
    · exact (waits.2 (by simp) pr found).cons rfl
  | land => exact ⟨logged, stage⟩

theorem followed_initial : Followed name run {} :=
  ⟨⟨fun _ _ marker => (by cases marker), rfl, fun _ _ marker => (by cases marker), rfl⟩, trivial⟩

end Steps

/-! ## Runs -/

/-- Where no two interrupted allocations share the run, every pass that asked about it
    was saved before the next one started, and GitHub's answers are conclusive once the
    count has begun, a request is found not to have happened only after three agreeing
    passes in a row. -/
theorem refuted_after_streak {p : Passes} {run : Int} (single : p.conditions.single run)
    (conclusive : ∀ log k reply, p.conditions.answers log run k reply → Conclusive log run k reply)
    {system : System Api Site (Option GoError)} (reached : p.Run system)
    (saved : Heeds (unread run) system.world.history.events = true) :
    confirmed p.name run system.world.history.events = true := by
  obtain ⟨stage, staged⟩ := (run_reachable reached).staged
  exact (Reachable.invariant_of_heeds followed_initial
    (fun _ _ followed heeds step => followed.step single conclusive heeds step) staged saved).logged.confirmed

/-- Three interrupted allocations share a run: the answer to the request of the first
    one is lost, and each of the others advances the count in the same pass. -/
def sharedRun : System Api Site (Option GoError) :=
  retryingPasses.played (retryingPasses.script (fun _ _ => false) requestsLost (retryingPasses_allow requestsLost))
    [("rs-a", 7), ("rs-b", 7), ("rs-c", 7)] [(0, 100), (1, 100)]

theorem refuted_too_early :
    retryingPasses.Run sharedRun ∧ confirmed retryingPasses.name 7 sharedRun.world.history.events = false :=
  ⟨Passes.played_run _ _ _ (stocked_initial _ (by decide) fun _ impossible => impossible.elim), by decide +kernel⟩

/-- Passes over runs of which no two interrupted allocations are part, with a GitHub
    that answers conclusively. -/
def lonePasses : Passes := .madeBy retrying { answers := Conclusive, single := fun _ => True } trivial

/-- The first attempt and the one an unresolved request was made for can be read; the
    answer to every request is lost. -/
def lostAnswers (request : ApiRequest) (w : Site) : ApiReply request :=
  match request with
  | .attemptJobs _ _ run attempt =>
    if attempt = 1 || (w.history.stored.marker run).any fun pr => pr.attempt = attempt then
      .ok [{
        id := 1, runID := run, attempt := attempt, runnerName := "rs-a", status := "completed", conclusion := "failure" }]
    else .error ⟨[.attemptNotFound], "attempt not found"⟩
  | .rerunFailedJobs _ _ _ => some (.new "timeout")
  | request => silence request

theorem lostAnswers_conclusive (w : Site) (request : ApiRequest) :
    lonePasses.conditions.allow w.history request (lostAnswers request w) := by
  cases request with
  | attemptJobs owner repo run attempt =>
    intro pr marker _
    refine ⟨fun _ => ?_, fun own _ => ?_⟩
    · unfold lostAnswers
      dsimp only
      split
      · exact .inr ⟨_, rfl, Nat.one_pos⟩
      · exact .inl rfl
    · simp [lostAnswers, marker, own]
  | getMap | createMap | updateMap | deleteMap | listMaps | now | newUUID | readCatalog | observePrice
  | pollInterruptions | provider | deregisterRunner | rerunFailedJobs | note | rangeOrder | schedule => trivial

def lonelyRun : System Api Site (Option GoError) :=
  lonePasses.played (lonePasses.script (fun _ _ => false) lostAnswers lostAnswers_conclusive) [("rs-a", 7)]
    [(0, 100), (1, 100), (2, 100), (3, 100)]

theorem refuted_after_streak_lonelyRun :
    lonelyRun.world.history.events.any (Event.refutes 7 1) = true ∧
      confirmed lonePasses.name 7 lonelyRun.world.history.events = true := by
  have run : lonePasses.Run lonelyRun :=
    Passes.played_run _ _ _ (stocked_initial _ (by decide) fun _ _ first member second member' _ _ => by
      rw [List.mem_singleton] at member member'
      rw [member, member'])
  exact ⟨by decide +kernel, refuted_after_streak trivial (fun _ _ _ conclusive => conclusive) run (by decide +kernel)⟩

end RunnerScout.Reruns
