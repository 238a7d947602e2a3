import RunnerScout.Interaction.Concurrency
import RunnerScout.Interaction.Trace

/-! # Fork and join inside one thread

`Program.both` runs two programs until both are done; a `schedule` request decides
at every moment which of them goes on, so that every interleaving is one way of
answering the schedule.  The rule for it needs requests whose effects the thread
itself can rely on (`Rely.together thread thread`); `Rely.Triple.weaken` then carries
the result over to a thread that promises less.
-/

namespace RunnerScout.Interaction

namespace Program

variable {S T : Signature} {α β : Type} (schedule : S.Request) (first : S.Reply schedule → Bool)

/-- The left program stands at a request; recursion over the right one. -/
def bothFrom (request : S.Request) (left : S.Reply request → Program S β → Program S (α × β))
    (finish : β → Program S (α × β)) : Program S β → Program S (α × β)
  | .done value => finish value
  | .call other rest =>
    .call schedule fun turn =>
      if first turn then .call request fun reply => left reply (.call other rest)
      else .call other fun reply => bothFrom request left finish (rest reply)

def both : Program S α → Program S β → Program S (α × β)
  | .done value => fun right => right >>= fun other => .done (value, other)
  | .call request next =>
    bothFrom schedule first request (fun reply => both (next reply))
      fun other => .call request next >>= fun value => .done (value, other)

variable {schedule first}

theorem Only.both {allowed : S.Request → Prop} (scheduled : allowed schedule) {left : Program S α} {right : Program S β}
    (one : left.Only allowed) (two : right.Only allowed) : (Program.both schedule first left right).Only allowed := by
  induction left generalizing right with
  | done value => exact .bind two fun _ => trivial
  | call request next ih =>
    induction right with
    | done value => exact .bind one fun _ => trivial
    | call other rest also =>
      refine ⟨scheduled, fun turn => ?_⟩
      dsimp only
      split
      · exact ⟨one.1, fun reply => ih reply (one.2 reply) two⟩
      · exact ⟨two.1, fun reply => also reply (two.2 reply)⟩

end Program

namespace Rely

variable {S T : Signature} {W V α β : Type} {rely : Rely W} {semantics : Semantics S W} {thread : Nat}

theorem Stable.and {first second : W → Prop} (one : rely.Stable thread first) (two : rely.Stable thread second) :
    rely.Stable thread fun world => first world ∧ second world := fun before after kept relied holds =>
  ⟨one before after kept relied holds.1, two before after kept relied holds.2⟩

theorem stable_pure (fact : Prop) : rely.Stable thread fun _ => fact := fun _ _ _ _ holds => holds

/-- A program that has not made its next request yet does not notice interference. -/
theorem wp_interfere {program : Program S α} {post : α → W → Prop} (stable : ∀ value, rely.Stable thread (post value))
    {before after : W} (holds : program.wp (rely.handler semantics thread) post before)
    (kept : rely.invariant after) (relied : rely.rely thread before after) :
    program.wp (rely.handler semantics thread) post after := by
  cases program with
  | done value => exact stable value before after kept relied holds
  | call request next =>
    intro now still later
    exact holds now still (rely.trans thread _ _ _ relied later)

/-- What a thread may rely on is still true after its own requests, once these
    respect it as well. -/
theorem wp_frame (shared : rely.together thread thread) {assertion : W → Prop}
    (stable : rely.Stable thread assertion) {program : Program S α} {post : α → W → Prop} {world : W}
    (holds : program.wp (rely.handler semantics thread) post world) (truth : assertion world) :
    program.wp (rely.handler semantics thread) (fun value after => post value after ∧ assertion after) world := by
  induction program generalizing world with
  | done value => exact ⟨holds, truth⟩
  | call request next ih =>
    intro now kept later reply after executed
    obtain ⟨keeps, others, rest⟩ := holds now kept later reply after executed
    have here := stable world now kept later truth
    exact ⟨keeps, others, ih reply rest (stable now after keeps (others thread shared) here)⟩

section Both

variable {schedule : S.Request} {first : S.Reply schedule → Bool} {left : Program S α} {right : Program S β}
  {post : α → W → Prop} {other : β → W → Prop}

theorem wp_both (idle : ∀ world reply after, semantics thread world schedule reply after → after = world)
    (shared : rely.together thread thread) (stable : ∀ value, rely.Stable thread (post value))
    (otherStable : ∀ value, rely.Stable thread (other value)) {world : W}
    (one : left.wp (rely.handler semantics thread) post world)
    (two : right.wp (rely.handler semantics thread) other world) :
    (left.both schedule first right).wp (rely.handler semantics thread)
      (fun values after => post values.1 after ∧ other values.2 after) world := by
  induction left generalizing right world with
  | done value =>
    rw [Program.both, Program.wp_bind]
    refine Program.wp_mono (handler_monotone rely semantics thread) right ?_ world
      (wp_frame shared (stable value) two one)
    exact fun result after ⟨right, left⟩ => ⟨left, right⟩
  | call request next leftIH =>
    induction right generalizing world with
    | done value =>
      have framed := wp_frame shared (otherStable value) one two
      change ((Program.call request next) >>= fun result => Program.done (result, value)).wp _ _ _
      rw [Program.wp_bind]
      exact framed
    | call asked rest rightIH =>
      intro now kept later turn after executed
      obtain rfl := idle now turn after executed
      refine ⟨kept, fun _ _ => rely.refl _ _, ?_⟩
      dsimp only
      split
      · intro here keptHere laterHere reply next executed
        have since := rely.trans thread _ _ _ later laterHere
        obtain ⟨keeps, others, more⟩ := one here keptHere since reply next executed
        have passed := rely.trans thread _ _ _ since (others thread shared)
        exact ⟨keeps, others, leftIH reply more (wp_interfere otherStable two keeps passed)⟩
      · intro here keptHere laterHere reply next executed
        have since := rely.trans thread _ _ _ later laterHere
        obtain ⟨keeps, others, more⟩ := two here keptHere since reply next executed
        have passed := rely.trans thread _ _ _ since (others thread shared)
        exact ⟨keeps, others, rightIH reply (wp_interfere stable one keeps passed) more⟩

end Both

namespace Triple

variable {pre : W → Prop}

theorem frame (shared : rely.together thread thread) {assertion : W → Prop} (stable : rely.Stable thread assertion)
    {program : Program S α} {post : α → W → Prop} (triple : rely.Triple semantics thread pre program post) :
    rely.Triple semantics thread (fun world => pre world ∧ assertion world) program
      fun value world => post value world ∧ assertion world := fun world ⟨holds, framed⟩ =>
  wp_frame shared stable (triple world holds) framed

/-- Two programs of one thread, each of which keeps what the other one knows. -/
theorem both {schedule : S.Request} {first : S.Reply schedule → Bool}
    (idle : ∀ world reply after, semantics thread world schedule reply after → after = world)
    (shared : rely.together thread thread) {left : Program S α} {right : Program S β} {post : α → W → Prop}
    {other : β → W → Prop} (stable : ∀ value, rely.Stable thread (post value))
    (otherStable : ∀ value, rely.Stable thread (other value))
    (one : rely.Triple semantics thread pre left post) (two : rely.Triple semantics thread pre right other) :
    rely.Triple semantics thread pre (left.both schedule first right)
      fun values world => post values.1 world ∧ other values.2 world := fun world start =>
  wp_both idle shared stable otherStable (one world start) (two world start)

/-- A thread may be verified against more interference and for a stronger promise
    than it is later run with. -/
theorem weaken {weaker : Rely W} (invariant : ∀ world, weaker.invariant world ↔ rely.invariant world)
    (relies : ∀ before after, weaker.rely thread before after → rely.rely thread before after)
    (promises : ∀ before after, (∀ other, rely.together thread other → rely.rely other before after) →
      ∀ other, weaker.together thread other → weaker.rely other before after)
    {program : Program S α} {post : α → W → Prop} (triple : rely.Triple semantics thread pre program post) :
    weaker.Triple semantics thread pre program post := by
  intro world holds
  refine Program.wp_simulate Eq ?_ program ?_ rfl (triple world holds)
  · rintro request _ world rfl one two carry safe now kept later reply after executed
    obtain ⟨keeps, others, rest⟩ := safe now ((invariant now).mp kept) (relies _ _ later) reply after executed
    exact ⟨(invariant after).mpr keeps, promises now after others, carry reply after after rfl rest⟩
  · rintro value _ world rfl reached
    exact reached

/-- A program written against an interface, run with an implementation of it: enough
    that the implementation of every request the program's protocol allows keeps the
    assertion that ties the program's view to the world. -/
theorem interpret {implementation : (request : T.Request) → Program S (T.Reply request)} {protocol : Protocol T V}
    {assertion : V → W → Prop}
    (implements : ∀ view request, protocol.allowed view request →
      rely.Triple semantics thread (assertion view) (implementation request)
        fun reply world => protocol.answers request reply ∧ assertion (protocol.next view request reply) world)
    {program : Program T α} {view : V} {result : α → V → Prop} (follows : program.Follows protocol view result) :
    rely.Triple semantics thread (assertion view) (program.interpret implementation)
      fun value world => ∃ view, result value view ∧ assertion view world := by
  induction program generalizing view with
  | done value => exact done fun world holds => ⟨view, follows, holds⟩
  | call request next ih =>
    obtain ⟨allowed, rest⟩ := follows
    refine bind (implements view request allowed) fun reply world ⟨answered, holds⟩ => ?_
    exact ih reply (rest reply answered) world holds

end Triple

end Rely

end RunnerScout.Interaction
