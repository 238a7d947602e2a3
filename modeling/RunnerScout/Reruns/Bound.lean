import Mathlib.Order.Interval.Finset.Basic
import Mathlib.Data.Int.Interval
import RunnerScout.Reruns.Repeats

/-! # The retry bound

The requests of a run that landed, or may still land, are all open, so the maps account
for them: each was for an attempt of its own, within the limit.  GitHub need only be
truthful about requests whose answer was lost: when it says that an attempt does not
exist, the request for it has not landed and will not.
-/

namespace RunnerScout.Reruns

open Interaction Operator Recovery RunnerScout.State

/-- An attempt that GitHub does not know of was not begun by a request whose answer was lost. -/
def Truthful (c : Conditions) : Prop :=
  ∀ log run attempt reply, c.answers log run attempt reply → notFound reply = true → (run, attempt - 1) ∉ log.late

/-- The requests that landed or may still land. -/
def Log.requests (log : Log) : List (Int × Int) := log.landed ++ log.outstanding

/-- How many reruns of a run landed. -/
def Log.reruns (log : Log) (run : Int) : Nat := (log.landed.filter fun x => x.1 = run).length

/-- Requests are made on behalf of allocations that are not marked as processed. -/
def Unprompted : List Event → Prop
  | [] => True
  | .posted id _ _ _ :: older => ¬ Marked older id ∧ Unprompted older
  | _ :: older => Unprompted older

/-- A save of the fleet takes no counted retry back and counts none beyond the limit. -/
def Event.Bounded (name : String) (limit : Int) : Event → Prop
  | .saved before after => ∀ run, (before.fleet name).retriesUsed run ≤ (after.fleet name).retriesUsed run ∧
      (after.fleet name).retriesUsed run ≤ limit
  | _ => True

/-- Distinct attempts within a limit. -/
theorem length_le_of_nodup {attempts : List Int} {limit : Int} (nodup : attempts.Nodup)
    (within : ∀ k ∈ attempts, 1 ≤ k ∧ k ≤ limit) (nonneg : 0 ≤ limit) : (attempts.length : Int) ≤ limit := by
  have subset : attempts.toFinset ⊆ Finset.Icc 1 limit := fun k member => by
    simpa using within k (List.mem_toFinset.mp member)
  have card := Finset.card_le_card subset
  rw [List.toFinset_card_of_nodup nodup, Int.card_Icc] at card
  omega

/-! ## The maps -/

namespace Book

/-- Counts within the limit, with room for an unresolved request. -/
def Within (b : Book) (limit : Int) : Prop :=
  ∀ run, 0 ≤ b.count run ∧ b.count run ≤ limit ∧ (b.marker run ≠ none → b.count run < limit)

/-- Every accepted request is counted. -/
def Counts (b : Book) (accepted : List (Int × Int)) : Prop := ∀ run k, (run, k) ∈ accepted → k ≤ b.count run

/-- No count is taken back. -/
def Exceeds (b earlier : Book) : Prop := ∀ run, earlier.count run ≤ b.count run

end Book

section Books

variable {b earlier : Book} {run limit : Int} {pr : PendingRerun} {accepted : List (Int × Int)}

theorem exceeds_settle (sound : b.Sound) (marker : b.marker run = some pr) : (b.settle run pr.attempt).Exceeds b := by
  intro other
  by_cases same : other = run
  · subst same
    rw [count_settle, sound other pr marker]
    omega
  · rw [count_settle_ne same]

theorem exceeds_accept : (b.accept run (b.count run + 1)).Exceeds b := by
  intro other
  by_cases same : other = run
  · subst same
    rw [count_accept]
    omega
  · rw [count_accept_ne same]

theorem Book.Exceeds.trans {later : Book} (first : b.Exceeds earlier) (second : later.Exceeds b) :
    later.Exceeds earlier := fun run => (first run).trans (second run)

theorem Book.Counts.mono {later : Book} (counts : b.Counts accepted) (exceeds : later.Exceeds b) :
    later.Counts accepted := fun run k member => (counts run k member).trans (exceeds run)

theorem Book.Within.settle (within : b.Within limit) (sound : b.Sound) (marker : b.marker run = some pr) :
    (b.settle run pr.attempt).Within limit := by
  intro other
  by_cases same : other = run
  · subst same
    obtain ⟨nonneg, _, room⟩ := within other
    have below := room (by rw [marker]; exact Option.some_ne_none _)
    rw [count_settle, marker_settle, sound other pr marker]
    exact ⟨by omega, by omega, fun none => absurd rfl none⟩
  · rw [count_settle_ne same, marker_settle_ne same]
    exact within other

theorem Book.Within.clear (within : b.Within limit) : (b.clear run).Within limit := by
  intro other
  obtain ⟨nonneg, most, room⟩ := within other
  refine ⟨nonneg, most, fun present => room ?_⟩
  by_cases same : other = run
  · subst same
    exact absurd marker_clear present
  · rwa [marker_clear_ne same] at present

theorem Book.Within.park (within : b.Within limit) (below : b.count run < limit) : (b.park run pr).Within limit := by
  intro other
  by_cases same : other = run
  · subst same
    exact ⟨(within other).1, (within other).2.1, fun _ => below⟩
  · rw [count_park, marker_park_ne same]
    exact within other

theorem Book.Within.accept (within : b.Within limit) (free : b.marker run = none) (below : b.count run < limit) :
    (b.accept run (b.count run + 1)).Within limit := by
  intro other
  by_cases same : other = run
  · subst same
    rw [count_accept, marker_accept, free]
    exact ⟨by have := (within other).1; omega, by omega, fun none => absurd rfl none⟩
  · rw [count_accept_ne same, marker_accept]
    exact within other

end Books

/-! ## The invariant -/

/-- A request that GitHub was found not to know of has not landed and will not. -/
def Turn.Refutes (b : Book) (todo : List (String × Int)) (log : Log) : Turn → Prop
  | .reading none | .reading (some (.confirmedDidNotHappen, _)) =>
    ∀ id run rest pr, todo = (id, run) :: rest → b.marker run = some pr →
      (run, pr.attempt) ∉ log.late ∧ (run, pr.attempt) ∉ log.outstanding
  | _ => True

def Stage.Within (limit : Int) (log : Log) : Stage → Prop
  | .running b todo turn =>
    b.Within limit ∧ b.Counts log.accepted ∧ b.Exceeds log.stored ∧ turn.Refutes b todo log
  | _ => True

/-- What the stored maps and the history keep. -/
structure Tallied (name : String) (limit : Int) (log : Log) : Prop where
  stored : log.stored.Within limit
  counted : settled log.events = true → log.stored.Counts log.accepted
  nodup : log.requests.Nodup
  opened : ∀ run k, (run, k) ∈ log.requests → isOpen run k log.events = true ∧ 1 ≤ k ∧ k ≤ limit
  saves : ∀ e ∈ log.events, e.Bounded name limit
  unprompted : Unprompted log.events

structure Bounded (name : String) (limit : Int) (s : State) : Prop where
  guarded : Guarded s
  tallied : Tallied name limit s.log
  stage : s.stage.Within limit s.log
  unmarked : ∀ turn ∈ s.stage.todo, ¬ Marked s.log.events turn.1

section Histories

variable {name : String} {limit : Int} {log : Log} {e : Event}

theorem mem_requests {x : Int × Int} : x ∈ log.requests ↔ x ∈ log.late ∨ x ∈ log.accepted ∨ x ∈ log.outstanding := by
  simp [Log.requests, Log.landed]

theorem bounded_cons {events : List Event} (saves : ∀ e ∈ events, e.Bounded name limit) (new : e.Bounded name limit) :
    ∀ x ∈ e :: events, x.Bounded name limit := fun x member => by
  obtain rfl | member := List.mem_cons.mp member
  · exact new
  · exact saves x member

/-- An event that tells nothing about requests. -/
theorem Tallied.add (tallied : Tallied name limit log) (plain : e.plain = true)
    (noPost : ∀ id run attempt err, e ≠ .posted id run attempt err) : Tallied name limit (log.add e) where
  stored := tallied.stored
  counted := fun saved => tallied.counted ((settled_plain plain).symm.trans saved)
  nodup := tallied.nodup
  opened := fun run k member =>
    ⟨(isOpen_plain plain).trans (tallied.opened run k member).1, (tallied.opened run k member).2⟩
  saves := bounded_cons tallied.saves <| by
    cases e with
    | saved => cases plain
    | started | read | classified | posted | recorded => trivial
  unprompted := by
    cases e with
    | posted id run attempt err => exact absurd rfl (noPost id run attempt err)
    | started | read | classified | recorded | saved => exact tallied.unprompted

/-- GitHub's answers only rule requests out. -/
theorem read_outstanding (log : Log) (run attempt : Int) (reply : Except GoError (List RESTJob)) :
    (log.read run attempt reply).outstanding.Sublist log.outstanding := by
  unfold Log.read
  dsimp only
  split
  · exact List.filter_sublist
  · exact List.Sublist.refl _

theorem Tallied.read (tallied : Tallied name limit log) (run attempt : Int) (reply : Except GoError (List RESTJob)) :
    Tallied name limit (log.read run attempt reply) := by
  obtain ⟨stored, counted, nodup, opened, saves, unprompted⟩ := tallied.add (e := .read run attempt reply) rfl (by simp)
  have fewer : (log.read run attempt reply).requests.Sublist log.requests :=
    (List.Sublist.refl _).append (read_outstanding log run attempt reply)
  exact ⟨stored, counted, nodup.sublist fewer, fun other k member => opened other k (fewer.subset member), saves,
    unprompted⟩

theorem Tallied.land (tallied : Tallied name limit log) {run attempt : Int} (waits : (run, attempt) ∈ log.outstanding) :
    Tallied name limit (log.land run attempt) := by
  have same : (log.land run attempt).requests.Perm log.requests := by
    have moved : ((run, attempt) :: (log.landed ++ log.outstanding.erase (run, attempt))).Perm
        (log.landed ++ log.outstanding) :=
      List.perm_middle.symm.trans ((List.perm_cons_erase waits).symm.append_left _)
    simpa [Log.requests, Log.landed, Log.land] using moved
  exact ⟨tallied.stored, tallied.counted, same.nodup_iff.mpr tallied.nodup,
    fun other k member => tallied.opened other k (same.mem_iff.mp member), tallied.saves, tallied.unprompted⟩

end Histories

section Steps

variable {name : String} {limit : Int} {b : Book} {id : String} {run : Int} {todo : List (String × Int)} {log : Log}
  {stage : Stage} {e : Event} {pr resolved : PendingRerun} {outcome : RerunOutcome} {turn : Turn}

theorem unmarked_add {turns : List (String × Int)} {events : List Event}
    (unmarked : ∀ turn ∈ turns, ¬ Marked events turn.1) (others : ∀ turn ∈ turns, ¬ e.marks turn.1) :
    ∀ turn ∈ turns, ¬ Marked (e :: events) turn.1 := fun turn member => by
  rw [marked_cons, not_or]
  exact ⟨others turn member, unmarked turn member⟩

theorem not_marks_of (other : ∀ before after, e ≠ .saved before after ∧ e ≠ .recorded before after) (id : String) :
    ¬ e.marks id := by
  rintro ⟨before, after, event, _⟩
  exact event.elim (other before after).1 (other before after).2

/-- What the pass under way keeps does not depend on the events, and a request that
    lands is no new one. -/
theorem Stage.Within.congr {after : Log} (stage : Stage) (within : stage.Within limit log)
    (stored : after.stored = log.stored) (accepted : after.accepted = log.accepted)
    (fewer : ∀ x, x ∈ after.late ∨ x ∈ after.outstanding → x ∈ log.late ∨ x ∈ log.outstanding) :
    stage.Within limit after := by
  cases stage with
  | idle | listing => trivial
  | running b todo turn =>
    obtain ⟨within, counts, exceeds, refutes⟩ := within
    refine ⟨within, accepted ▸ counts, stored ▸ exceeds, ?_⟩
    have keeps (held : ∀ id run rest pr, todo = (id, run) :: rest → b.marker run = some pr →
        (run, pr.attempt) ∉ log.late ∧ (run, pr.attempt) ∉ log.outstanding) (id : String) (run : Int)
        (rest : List (String × Int)) (pr : PendingRerun) (first : todo = (id, run) :: rest)
        (marker : b.marker run = some pr) : (run, pr.attempt) ∉ after.late ∧ (run, pr.attempt) ∉ after.outstanding := by
      obtain ⟨late, outstanding⟩ := held id run rest pr first marker
      exact ⟨fun member => (fewer _ (.inl member)).elim late outstanding,
        fun member => (fewer _ (.inr member)).elim late outstanding⟩
    match turn, refutes with
    | .fresh, _ | .looked, _ | .reading (some (.confirmedHappened, _)), _ | .reading (some (.stillAmbiguous, _)), _ => trivial
    | .reading none, refutes | .reading (some (.confirmedDidNotHappen, _)), refutes => exact keeps refutes

theorem Bounded.readNext {c : Conditions} (truthful : Truthful c) {reply : Except GoError (List RESTJob)}
    (marker : b.marker run = some pr) (allowed : c.answers log run (pr.attempt + 1) reply)
    (stage : Stage.Within limit log (.running b ((id, run) :: todo) .fresh)) :
    Stage.Within limit (log.read run (pr.attempt + 1) reply)
      (.running b ((id, run) :: todo) (.reading (answeredNext pr reply))) := by
  obtain ⟨within, counts, exceeds, _⟩ := stage
  refine ⟨within, counts, exceeds, ?_⟩
  cases answered : answeredNext pr reply with
  | none =>
    intro id' run' rest held same found
    cases same
    cases marker.symm.trans found
    have missing := answeredNext_none.mp answered
    have late := truthful log run (pr.attempt + 1) reply allowed missing
    rw [add_sub_cancel_right] at late
    exact ⟨late, by simp [Log.read, missing]⟩
  | some result =>
    have other := (answeredNext_spec answered).2
    obtain ⟨outcome, resolved⟩ := result
    cases outcome with
    | confirmedDidNotHappen => exact absurd rfl other
    | confirmedHappened | stillAmbiguous => trivial

theorem Bounded.readOwn {reply : Except GoError (List RESTJob)}
    (stage : Stage.Within limit log (.running b ((id, run) :: todo) (.reading none))) :
    Stage.Within limit (log.read run pr.attempt reply)
      (.running b ((id, run) :: todo) (.reading (some (answeredOwn pr reply)))) := by
  obtain ⟨within, counts, exceeds, refutes⟩ := stage
  refine ⟨within, counts, exceeds, ?_⟩
  obtain ⟨outcome, resolved⟩ := answeredOwn pr reply
  cases outcome with
  | confirmedDidNotHappen =>
    intro id' run' rest held same found
    obtain ⟨late, outstanding⟩ := refutes id' run' rest held same found
    exact ⟨late, fun member => outstanding ((read_outstanding log run pr.attempt reply).subset member)⟩
  | confirmedHappened | stillAmbiguous => trivial

/-- A conclusion keeps the maps within the limit. -/
theorem Stage.Within.resolve (guarded : Guarded ⟨.running b ((id, run) :: todo) (.reading (some (outcome, resolved))), log⟩)
    (marker : b.marker run = some pr) (within : b.Within limit) :
    (b.resolve run outcome resolved).Within limit ∧ (b.resolve run outcome resolved).Exceeds b := by
  obtain ⟨_, sound, _, concludes⟩ := guarded
  have attempt : resolved.attempt = pr.attempt := concludes id run todo pr rfl marker
  have present : b.marker run ≠ none := by rw [marker]; exact Option.some_ne_none _
  cases outcome with
  | confirmedHappened =>
    rw [Book.resolve, attempt]
    exact ⟨within.settle sound marker, exceeds_settle sound marker⟩
  | confirmedDidNotHappen => exact ⟨within.clear, fun _ => le_rfl⟩
  | stillAmbiguous => exact ⟨within.park ((within run).2.2 present), fun _ => le_rfl⟩

/-- A request found not to have happened is none of those that landed or may land. -/
theorem Tallied.classify (guarded : Guarded ⟨.running b ((id, run) :: todo) (.reading (some (outcome, resolved))), log⟩)
    (marker : b.marker run = some pr) (tallied : Tallied name limit log)
    (stage : Stage.Within limit log (.running b ((id, run) :: todo) (.reading (some (outcome, resolved))))) :
    Tallied name limit (log.add (.classified run pr.attempt outcome)) := by
  by_cases refuted : outcome = .confirmedDidNotHappen
  swap
  · exact tallied.add (by simpa [Event.plain] using refuted) (by simp)
  subst refuted
  obtain ⟨_, counts, _, refutes⟩ := stage
  obtain ⟨late, outstanding⟩ := refutes id run todo pr rfl marker
  have absent : (run, pr.attempt) ∉ log.requests := by
    rw [mem_requests]
    rintro (member | member | member)
    · exact late member
    · have counted := counts run pr.attempt member
      have next := guarded.covers.1 run pr marker
      omega
    · exact outstanding member
  refine ⟨tallied.stored, tallied.counted, tallied.nodup, fun other k member => ?_, bounded_cons tallied.saves trivial,
    tallied.unprompted⟩
  obtain ⟨opened, within⟩ := tallied.opened other k member
  refine ⟨?_, within⟩
  have different : ¬ (run = other ∧ pr.attempt = k) := by
    rintro ⟨rfl, rfl⟩
    exact absent member
  simpa [Log.add, isOpen, Event.asks, Event.refutes, opened] using not_and_or.mp different

/-- The requests after one more. -/
theorem requests_post (asking : log.asking = (id, run, b.count run + 1)) (reply : Option GoError) :
    (log.post run reply).requests.Perm
      (if errorIs reply .rerunRejected then log.requests else (run, b.count run + 1) :: log.requests) := by
  cases reply with
  | none => simp [Log.requests, Log.landed, Log.post, asking, errorIs]
  | some e =>
    by_cases rejected : errorIs (some e) .rerunRejected = true
    · simp [Log.requests, Log.landed, Log.post, asking, rejected]
    · simp [Log.requests, Log.landed, Log.post, asking, rejected, -List.append_assoc]

theorem Tallied.post (guarded : Guarded ⟨.running b ((id, run) :: todo) turn, log⟩) (tallied : Tallied name limit log)
    (asking : log.asking = (id, run, b.count run + 1)) (free : b.marker run = none)
    (counted : 0 ≤ b.count run ∧ b.count run < limit) (unmarked : ¬ Marked log.events id) (reply : Option GoError) :
    Tallied name limit (log.post run reply) := by
  have events : (log.post run reply).events = .posted id run (b.count run + 1) reply :: log.events := by
    simp [Log.post, asking]
  have kept (other k : Int) (opened : isOpen other k log.events = true) :
      isOpen other k (log.post run reply).events = true := by
    rw [events]
    simp [isOpen, Event.refutes, opened]
  have new : (run, b.count run + 1) ∉ log.requests := fun member => by
    have opened := (tallied.opened _ _ member).1
    rw [isOpen_next guarded.covers.2.1 free] at opened
    cases opened
  have requests := requests_post asking reply
  refine ⟨tallied.stored, fun saved => ?_, ?_, fun other k member => ?_, ?_, ?_⟩
  · -- a request that was not rejected has yet to be saved
    rw [events, settled, Bool.and_eq_true] at saved
    have same : (log.post run reply).accepted = log.accepted := by
      cases reply with
      | none => cases saved.1
      | some e => rfl
    rw [same]
    exact tallied.counted saved.2
  · refine requests.nodup_iff.mpr ?_
    split
    · exact tallied.nodup
    · exact List.nodup_cons.mpr ⟨new, tallied.nodup⟩
  · have member := requests.mem_iff.mp member
    split at member
    · exact ⟨kept other k (tallied.opened other k member).1, (tallied.opened other k member).2⟩
    rename_i accepted
    obtain same | member := List.mem_cons.mp member
    · cases same
      refine ⟨?_, by omega, by omega⟩
      rw [events]
      simp [isOpen, Event.asks, accepted]
    · exact ⟨kept other k (tallied.opened other k member).1, (tallied.opened other k member).2⟩
  · rw [events]
    exact bounded_cons tallied.saves trivial
  · rw [events]
    exact ⟨unmarked, tallied.unprompted⟩

theorem Stage.Within.post (stage : Stage.Within limit log (.running b ((id, run) :: todo) turn))
    (asking : log.asking = (id, run, b.count run + 1)) (free : b.marker run = none)
    (below : b.count run < limit) (jobID : Int) (reply : Option GoError) :
    Stage.Within limit (log.post run reply) (.running (b.request run jobID reply) todo .fresh) := by
  obtain ⟨within, counts, exceeds, _⟩ := stage
  cases reply with
  | none =>
    refine ⟨within.accept free below, fun other k member => ?_, exceeds.trans exceeds_accept, trivial⟩
    obtain same | member := List.mem_cons.mp (show (other, k) ∈ (run, log.asking.2.2) :: log.accepted from member)
    · rw [asking] at same
      cases same
      rw [Book.request, count_accept]
    · exact (counts.mono exceeds_accept) other k member
  | some e =>
    by_cases rejected : errorIs (some e) .rerunRejected = true
    · rw [show b.request run jobID (some e) = b from if_pos rejected]
      exact ⟨within, counts, exceeds, trivial⟩
    · rw [show b.request run jobID (some e) = b.park run _ from if_neg rejected]
      exact ⟨within.park below, counts, exceeds, trivial⟩

theorem Bounded.step {c : Conditions} (truthful : Truthful c) (capped : ∀ most, c.limits most → most ≤ limit)
    {s after : State} (bounded : Bounded name limit s) (heeds : Heeds settled after.log.events = true)
    (step : Step c name s after) : Bounded name limit after := by
  have guarded := bounded.guarded.step heeds step
  obtain ⟨before, tallied, stage, unmarked⟩ := bounded
  cases step with
  | start => exact ⟨guarded, tallied.add rfl (by simp), trivial, fun _ member => by cases member⟩
  | crash => exact ⟨guarded, tallied, trivial, fun _ member => by cases member⟩
  | load _ fresh =>
    exact ⟨guarded, tallied, ⟨tallied.stored, tallied.counted before.covers, fun _ => le_rfl, trivial⟩, fresh⟩
  | record _ others =>
    exact ⟨guarded, tallied.add rfl (by simp), stage.congr _ rfl rfl fun _ member => member,
      unmarked_add unmarked others⟩
  | announce asking =>
    exact ⟨guarded, ⟨tallied.stored, tallied.counted, tallied.nodup, tallied.opened, tallied.saves, tallied.unprompted⟩,
      stage.congr _ rfl rfl fun _ member => member, unmarked⟩
  | readNext marker allowed =>
    exact ⟨guarded, tallied.read _ _ _, Bounded.readNext truthful marker allowed stage,
      unmarked_add unmarked fun _ _ => not_marks_of (by simp) _⟩
  | readOwn marker =>
    exact ⟨guarded, tallied.read _ _ _, Bounded.readOwn stage, unmarked_add unmarked fun _ _ => not_marks_of (by simp) _⟩
  | @classify b id run todo log pr resolved outcome marker =>
    have still := unmarked_add (e := .classified run pr.attempt outcome) unmarked fun _ _ => not_marks_of (by simp) _
    have resolves := Stage.Within.resolve before marker stage.1
    refine ⟨guarded, tallied.classify before marker stage, ?_, ?_⟩
    · split <;> exact ⟨resolves.1, stage.2.1.mono resolves.2, stage.2.2.1.trans resolves.2, trivial⟩
    · split
      · exact fun turn member => still turn (List.mem_cons_of_mem _ member)
      · exact still
  | unmarked => exact ⟨guarded, tallied, ⟨stage.1, stage.2.1, stage.2.2.1, trivial⟩, unmarked⟩
  | evaluate =>
    exact ⟨guarded, tallied.read _ _ _, ⟨stage.1, stage.2.1, stage.2.2.1, trivial⟩,
      unmarked_add unmarked fun _ _ => not_marks_of (by simp) _⟩
  | skip =>
    exact ⟨guarded, tallied, ⟨stage.1, stage.2.1, stage.2.2.1, trivial⟩,
      fun turn member => unmarked turn (List.mem_cons_of_mem _ member)⟩
  | @post b id run most todo log jobID reply asking free counted limits =>
    have below : b.count run < limit := lt_of_lt_of_le counted.2 (capped most limits)
    refine ⟨guarded, tallied.post before asking free ⟨counted.1, below⟩ (unmarked _ List.mem_cons_self) reply,
      Stage.Within.post stage asking free below jobID reply, ?_⟩
    exact unmarked_add (fun turn member => unmarked turn (List.mem_cons_of_mem _ member)) fun _ _ => not_marks_of (by simp) _
  | @save b log first last former latter quiet =>
    have counts : Event.Bounded name limit (.saved first last) := fun run => by
      rw [← count_book, ← count_book, former, latter]
      exact ⟨stage.2.2.1 run, (stage.1 run).2.1⟩
    refine ⟨guarded, ⟨stage.1, fun _ => stage.2.1, tallied.nodup, fun run k member => ?_, bounded_cons tallied.saves counts,
      tallied.unprompted⟩, trivial, fun _ member => by cases member⟩
    exact tallied.opened run k member
  | @land current log run attempt waits =>
    refine ⟨guarded, tallied.land waits, stage.congr _ rfl rfl fun x member => ?_, unmarked⟩
    obtain landed | waiting := member
    · obtain rfl | landed := List.mem_cons.mp landed
      · exact .inr waits
      · exact .inl landed
    · exact .inr (List.mem_of_mem_erase waiting)

theorem bounded_initial (nonneg : 0 ≤ limit) : Bounded name limit {} := by
  refine ⟨guarded_initial, ⟨fun run => ⟨le_rfl, nonneg, fun marked => absurd rfl marked⟩, ?_, List.nodup_nil, ?_, ?_, trivial⟩,
    trivial, ?_⟩
  · exact fun _ run k member => by cases member
  · exact fun run k member => by cases member
  · exact fun e member => by cases member
  · exact fun turn member => by cases member

/-! ## Counting -/

theorem reruns_le (nodup : log.requests.Nodup) {most : Int} (nonneg : 0 ≤ most)
    (within : ∀ k, (run, k) ∈ log.requests → 1 ≤ k ∧ k ≤ most) : (log.reruns run : Int) ≤ most := by
  have landed : log.landed.Nodup := (List.nodup_append.mp nodup).1
  have attempts : ((log.landed.filter fun x => x.1 = run).map Prod.snd).Nodup := by
    refine (landed.filter _).map_on fun x member y member' same => ?_
    simp only [List.mem_filter, decide_eq_true_eq] at member member'
    exact Prod.ext (member.2.trans member'.2.symm) same
  have bound := length_le_of_nodup attempts (fun k member => ?_) nonneg
  · rwa [List.length_map] at bound
  · obtain ⟨x, inside, rfl⟩ := List.mem_map.mp member
    simp only [List.mem_filter, decide_eq_true_eq] at inside
    refine within x.2 ?_
    rw [← inside.2]
    exact List.mem_append_left _ inside.1

theorem Bounded.reruns_le_limit {s : State} (bounded : Bounded name limit s) (nonneg : 0 ≤ limit) (run : Int) :
    (s.log.reruns run : Int) ≤ limit :=
  reruns_le bounded.tallied.nodup nonneg fun k member => (bounded.tallied.opened run k member).2

/-- The stored maps account for every rerun that landed. -/
theorem Bounded.reruns_le_counted {s : State} (bounded : Bounded name limit s) (saved : settled s.log.events = true)
    (run : Int) : (s.log.reruns run : Int) ≤
      s.log.stored.count run + if (s.log.stored.marker run).isSome then 1 else 0 := by
  have recorded := bounded.guarded.recorded
  have nonneg := (bounded.tallied.stored run).1
  refine reruns_le bounded.tallied.nodup (by split <;> omega) fun k member => ?_
  obtain ⟨opened, least, _⟩ := bounded.tallied.opened run k member
  refine ⟨least, ?_⟩
  obtain counted | ⟨pr, marker, rfl⟩ := recorded.covers saved run k opened
  · split <;> omega
  · have next := recorded.sound run pr marker
    rw [marker]
    simp only [Option.isSome_some, if_true]
    omega

end Steps

/-! ## Runs -/

/-- Whenever every pass starts after a pass's own save since the last request that was not
    rejected: a save takes no counted retry back and counts none beyond the limit; the
    reruns that landed are within the limit and, where the fleet is saved, within what
    is counted and unresolved; no processed allocation causes a request. -/
theorem retry_bound {p : Passes} {limit : Int} (nonneg : 0 ≤ limit) (truthful : Truthful p.conditions)
    (capped : ∀ most, p.conditions.limits most → most ≤ limit) {system : System Api Site (Option GoError)}
    (run : p.Run system) (saved : Heeds settled system.world.history.events = true) :
    (∀ e ∈ system.world.history.events, e.Bounded p.name limit) ∧
    (∀ run, (system.world.fleet p.name).retriesUsed run ≤ limit ∧ (system.world.history.reruns run : Int) ≤ limit) ∧
    (settled system.world.history.events = true → ∀ run, (system.world.history.reruns run : Int) ≤
      (system.world.fleet p.name).retriesUsed run +
        if ((system.world.fleet p.name).pendingReruns.lookup run).isSome then 1 else 0) ∧
    Unprompted system.world.history.events := by
  have kept := run_reachable run
  obtain ⟨stage, reached⟩ := kept.staged
  have bounded : Bounded p.name limit ⟨stage, system.world.history⟩ := Reachable.invariant_of_heeds
    (bounded_initial nonneg) (fun _ _ bounded heeds step => bounded.step truthful capped heeds step) reached saved
  have stored : system.world.history.stored = book (system.world.fleet p.name) := kept.stored.symm
  refine ⟨bounded.tallied.saves, fun run => ⟨?_, bounded.reruns_le_limit nonneg run⟩, fun saved run => ?_,
    bounded.tallied.unprompted⟩
  · have within := (bounded.tallied.stored run).2.1
    rw [stored] at within
    exact within
  · have counted := bounded.reruns_le_counted saved run
    rw [stored] at counted
    exact counted

/-- Passes of a policy that admits two retries, with a truthful GitHub. -/
def countingPasses : Passes :=
  .madeBy { retrying with config := { retrying.config with
      retry := { enabled := true, maxRetries := 2, acknowledgeRepeatedEffects := true } } }
    { answers := fun log run attempt reply => notFound reply = true → (run, attempt - 1) ∉ log.late
      limits := fun most => most ≤ 2 } (Int.le_refl 2)

/-- An attempt exists once the request for it has landed, and its jobs failed; the
    answer to every request after the first is lost. -/
def knownAttempts (request : ApiRequest) (w : Site) : ApiReply request :=
  match request with
  | .attemptJobs _ _ run attempt =>
    if attempt = 1 || (run, attempt - 1) ∈ w.history.landed then
      .ok (["rs-a", "rs-b"].map fun runner =>
        { id := 1, runID := run, attempt := attempt, runnerName := runner, status := "completed", conclusion := "failure" })
    else .error ⟨[.attemptNotFound], "attempt not found"⟩
  | .rerunFailedJobs _ _ _ => if w.history.accepted.isEmpty then none else some (.new "timeout")
  | request => silence request

theorem knownAttempts_allowed (w : Site) (request : ApiRequest) :
    countingPasses.conditions.allow w.history request (knownAttempts request w) := by
  cases request with
  | attemptJobs owner repo run attempt =>
    intro missing member
    have landed : (run, attempt - 1) ∈ w.history.landed := List.mem_append_left _ member
    simp [knownAttempts, landed, notFound] at missing
  | getMap | createMap | updateMap | deleteMap | listMaps | now | newUUID | readCatalog | observePrice
  | pollInterruptions | provider | deregisterRunner | rerunFailedJobs | note | rangeOrder | schedule => trivial

/-- Two allocations of one run are interrupted: the first one's rerun is accepted, and
    the answer to the second one's is lost. -/
def countingRun : System Api Site (Option GoError) :=
  countingPasses.played (countingPasses.script (fun _ _ => false) knownAttempts knownAttempts_allowed)
    [("rs-a", 7), ("rs-b", 7)] [(0, 100)]

theorem retry_bound_countingRun :
    countingRun.world.history.reruns 7 = 1 ∧ countingRun.world.history.outstanding = [(7, 2)] ∧
      ∀ run, (countingRun.world.history.reruns run : Int) ≤
        (countingRun.world.fleet countingPasses.name).retriesUsed run +
          if ((countingRun.world.fleet countingPasses.name).pendingReruns.lookup run).isSome then 1 else 0 := by
  have run : countingPasses.Run countingRun :=
    Passes.played_run _ _ _ (stocked_initial _ (by decide) fun _ impossible => impossible.elim)
  exact ⟨by decide +kernel, by decide +kernel, (retry_bound (show (0 : Int) ≤ 2 by decide) (fun _ _ _ _ truthful => truthful)
    (fun _ most => most) run (by decide +kernel)).2.2.1 (by decide +kernel)⟩

end RunnerScout.Reruns
