import RunnerScout.Interaction.Trace

/-! # Exchanges in a changing world

The exchanges of a program take place one after the other in a world that also moves
on its own.  `Occurs` lists them with the worlds at both ends; what a program is told
is then tied to the moment it asked.

`Versions` is the world of optimistic readers: objects in slots, each write under a
version its slot has never had.  A reader that finds one version twice knows what was
there in between.
-/

namespace RunnerScout.Interaction

section Occurs

variable {S : Signature} {W : Type}

/-- These exchanges, in this order, with moves of the world before, between and after
    them. -/
inductive Occurs (effect : W → Exchange S → W → Prop) (moves : W → W → Prop) : W → List (Exchange S) → W → Prop where
  | rest (world : W) : Occurs effect moves world [] world
  | move {before after last : W} {trace : List (Exchange S)} (moved : moves before after)
      (later : Occurs effect moves after trace last) : Occurs effect moves before trace last
  | exchange {before after last : W} {x : Exchange S} {trace : List (Exchange S)} (happened : effect before x after)
      (later : Occurs effect moves after trace last) : Occurs effect moves before (x :: trace) last

variable {effect : W → Exchange S → W → Prop} {moves : W → W → Prop} {before last : W}

theorem Occurs.append {middle : W} {first second : List (Exchange S)} (begins : Occurs effect moves before first middle)
    (ends : Occurs effect moves middle second last) : Occurs effect moves before (first ++ second) last := by
  induction begins with
  | rest => exact ends
  | move moved _ ih => exact .move moved (ih ends)
  | exchange happened _ ih => exact .exchange happened (ih ends)

/-- A run splits at every point. -/
theorem Occurs.split {first second : List (Exchange S)} (run : Occurs effect moves before (first ++ second) last) :
    ∃ middle, Occurs effect moves before first middle ∧ Occurs effect moves middle second last := by
  generalize whole : first ++ second = trace at run
  induction run generalizing first with
  | rest world =>
    obtain ⟨rfl, rfl⟩ := List.append_eq_nil_iff.mp whole
    exact ⟨world, .rest world, .rest world⟩
  | move moved _ ih =>
    obtain ⟨middle, begins, ends⟩ := ih whole
    exact ⟨middle, .move moved begins, ends⟩
  | @exchange before after last x trace happened later ih =>
    cases first with
    | nil =>
      rw [List.nil_append] at whole
      subst whole
      exact ⟨before, .rest before, .exchange happened later⟩
    | cons y first =>
      obtain ⟨rfl, tail⟩ := List.cons.inj whole
      obtain ⟨middle, begins, ends⟩ := ih tail
      exact ⟨middle, .exchange happened begins, ends⟩

/-- The moment of one exchange. -/
theorem Occurs.happened {x : Exchange S} {trace : List (Exchange S)} (run : Occurs effect moves before (x :: trace) last) :
    ∃ asked told, Occurs effect moves before [] asked ∧ effect asked x told ∧ Occurs effect moves told trace last := by
  generalize whole : x :: trace = exchanges at run
  induction run with
  | rest => cases whole
  | move moved _ ih =>
    obtain ⟨asked, told, begins, happens, ends⟩ := ih whole
    exact ⟨asked, told, .move moved begins, happens, ends⟩
  | @exchange before after last y exchanges happened later _ =>
    cases whole
    exact ⟨before, after, .rest before, happened, later⟩

/-- What every move and every exchange keeps. -/
theorem Occurs.invariant (property : W → Prop) {trace : List (Exchange S)} (run : Occurs effect moves before trace last)
    (moved : ∀ {a b}, moves a b → property a → property b) (happened : ∀ {a b x}, effect a x b → property a → property b)
    (holds : property before) : property last := by
  induction run with
  | rest => exact holds
  | move moves _ ih => exact ih (moved moves holds)
  | exchange happens _ ih => exact ih (happened happens holds)

end Occurs

/-! ## Versions -/

/-- Objects in slots, and the versions every slot has had. -/
structure Versions (Slot Object Version : Type) (version : Object → Version) where
  current : Slot → Option Object
  used : Slot → Version → Prop
  recorded : ∀ slot object, current slot = some object → used slot (version object)

namespace Versions

variable {Slot Object Version : Type} {version : Object → Version} {S : Signature}

/-- Writes, any number of them: what is in a slot is what was there, or its version is
    new to the slot. -/
structure Written (before after : Versions Slot Object Version version) : Prop where
  keeps : ∀ slot v, before.used slot v → after.used slot v
  fresh : ∀ slot object, after.current slot = some object →
    before.current slot = some object ∨ ¬ before.used slot (version object)

/-- A slot held an object and no longer does. -/
def Left (slot : Slot) (object : Object) (world : Versions Slot Object Version version) : Prop :=
  world.used slot (version object) ∧ ∀ other, world.current slot = some other → version other ≠ version object

variable {slot : Slot} {object : Object} {before after : Versions Slot Object Version version}

theorem Written.left (written : Written before after) (left : before.Left slot object) : after.Left slot object := by
  refine ⟨written.keeps _ _ left.1, fun other found same => ?_⟩
  obtain kept | fresh := written.fresh slot other found
  · exact left.2 other kept same
  · rw [same] at fresh
    exact fresh left.1

/-- A version that is overwritten does not come back. -/
theorem Written.held (written : Written before after) (held : before.current slot = some object) :
    after.current slot = some object ∨ after.Left slot object := by
  by_cases stays : after.current slot = some object
  · exact .inl stays
  have used := before.recorded slot object held
  refine .inr ⟨written.keeps _ _ used, fun other found same => ?_⟩
  obtain kept | fresh := written.fresh slot other found
  · rw [held] at kept
    cases kept
    exact stays found
  · rw [same] at fresh
    exact fresh used

/-- The effect of an exchange that only reads. -/
def Reading (answers : Versions Slot Object Version version → Exchange S → Prop)
    (before : Versions Slot Object Version version) (x : Exchange S) (after : Versions Slot Object Version version) :
    Prop := answers before x ∧ after = before

variable {answers : Versions Slot Object Version version → Exchange S → Prop}

theorem occurs_left {trace : List (Exchange S)} (run : Occurs (Reading answers) Written before trace after)
    (left : before.Left slot object) : after.Left slot object :=
  run.invariant (Left slot object) (fun written => written.left) (fun read left => read.2 ▸ left) left

theorem occurs_held {trace : List (Exchange S)} (run : Occurs (Reading answers) Written before trace after)
    (held : before.current slot = some object) : after.current slot = some object ∨ after.Left slot object := by
  refine run.invariant (fun world => world.current slot = some object ∨ world.Left slot object)
    (fun written holds => ?_) (fun read holds => read.2 ▸ holds) (.inl held)
  exact holds.elim written.held fun left => .inr (written.left left)

/-- One version found twice was there all the time. -/
theorem pinned {middle : Versions Slot Object Version version} {first second : List (Exchange S)} {other : Object}
    (begins : Occurs (Reading answers) Written before first middle)
    (ends : Occurs (Reading answers) Written middle second after) (held : before.current slot = some object)
    (found : after.current slot = some other) (same : version other = version object) :
    middle.current slot = some object ∧ other = object := by
  obtain stays | left := occurs_held begins held
  · refine ⟨stays, ?_⟩
    obtain still | left := occurs_held ends stays
    · rw [still] at found
      cases found
      rfl
    · exact absurd same (left.2 other found)
  · exact absurd same ((occurs_left ends left).2 other found)

/-- Two reads of one version, one before a moment and one after it. -/
theorem read_twice {first second : List (Exchange S)} {middle : Versions Slot Object Version version} {x y : Exchange S}
    {other : Object} (begins : Occurs (Reading answers) Written before first middle)
    (ends : Occurs (Reading answers) Written middle second after) (earlier : x ∈ first) (later : y ∈ second)
    (reads : ∀ world, answers world x → world.current slot = some object)
    (rereads : ∀ world, answers world y → world.current slot = some other) (same : version other = version object) :
    middle.current slot = some object ∧ other = object := by
  obtain ⟨front, back, rfl⟩ := List.append_of_mem earlier
  obtain ⟨between, rest, rfl⟩ := List.append_of_mem later
  obtain ⟨_, _, begins⟩ := begins.split
  obtain ⟨asked, _, _, ⟨answered, rfl⟩, begins⟩ := begins.happened
  obtain ⟨_, ends, again⟩ := ends.split
  obtain ⟨_, _, moved, ⟨reread, rfl⟩, _⟩ := again.happened
  exact pinned begins (ends.append moved) (reads _ answered) (rereads _ reread) same

end Versions

end RunnerScout.Interaction
