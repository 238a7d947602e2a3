import Mathlib.Algebra.Ring.Int.Defs
import Mathlib.Data.List.AList
import Mathlib.Data.List.TakeWhile

/-! # The parts of Go the sources rely on

Instants, error values that are matched with `errors.Is`, and maps.  A map is an
association list without repeated keys, so that `len` and a lookup are the ones
of the source; the order of a `range` loop is never read off it.
-/

namespace RunnerScout

/-- Nanoseconds since Go's zero instant, so that `IsZero` is `= 0`. -/
abbrev Time := Int

abbrev Duration := Int

def second : Duration := 1000000000

def minute : Duration := 60 * second

def hour : Duration := 60 * minute

/-- The UTC calendar day of an instant.  Two instants agree in `UTC().Date()`
    exactly when they agree in this number. -/
def utcDay (t : Time) : Int := t / (24 * hour)

abbrev GoMap (K V : Type) := AList (fun _ : K => V)

-- The instance of the library does not evaluate.
instance {K V : Type} [DecidableEq K] [DecidableEq V] : DecidableEq (GoMap K V) := fun a b =>
  decidable_of_iff (a.entries = b.entries) AList.ext_iff.symm

theorem GoMap.mem_iff {K V : Type} [DecidableEq K] {m : GoMap K V} {k : K} : k ∈ m ↔ ∃ v, m.lookup k = some v :=
  AList.lookup_isSome.symm.trans Option.isSome_iff_exists

theorem GoMap.lookup_erase_eq_some {K V : Type} [DecidableEq K] {m : GoMap K V} {k other : K} {v : V} :
    (m.erase k).lookup other = some v ↔ other ≠ k ∧ m.lookup other = some v := by
  by_cases same : other = k
  · subst same
    simp
  · simp [AList.lookup_erase_ne same, same]

/-- The map after a loop of assignments. -/
def GoMap.insertAll {K V : Type} [DecidableEq K] (entries : List (K × V)) (m : GoMap K V) : GoMap K V :=
  entries.foldl (fun m entry => m.insert entry.1 entry.2) m

section InsertAll

variable {K V : Type} [DecidableEq K]

@[simp] theorem GoMap.mem_insertAll {entries : List (K × V)} {m : GoMap K V} {k : K} :
    k ∈ GoMap.insertAll entries m ↔ k ∈ entries.map Prod.fst ∨ k ∈ m := by
  induction entries generalizing m with
  | nil => simp [insertAll]
  | cons entry rest ih =>
    rw [insertAll, List.foldl_cons]
    change k ∈ GoMap.insertAll rest (m.insert entry.1 entry.2) ↔ _
    rw [ih, AList.mem_insert, List.map_cons, List.mem_cons]
    tauto

theorem GoMap.lookup_insertAll_of_notMem {entries : List (K × V)} {m : GoMap K V} {k : K}
    (absent : k ∉ entries.map Prod.fst) : (GoMap.insertAll entries m).lookup k = m.lookup k := by
  induction entries generalizing m with
  | nil => rfl
  | cons entry rest ih =>
    rw [List.map_cons, List.mem_cons, not_or] at absent
    rw [insertAll, List.foldl_cons]
    exact (ih absent.2).trans (AList.lookup_insert_ne absent.1)

theorem GoMap.lookup_insertAll_of_mem {entries : List (K × V)} {m : GoMap K V} {k : K} {v : V}
    (nodup : (entries.map Prod.fst).Nodup) (member : (k, v) ∈ entries) :
    (GoMap.insertAll entries m).lookup k = some v := by
  induction entries generalizing m with
  | nil => cases member
  | cons entry rest ih =>
    rw [List.map_cons, List.nodup_cons] at nodup
    rw [insertAll, List.foldl_cons]
    obtain rfl | later := List.mem_cons.mp member
    · exact (lookup_insertAll_of_notMem nodup.1).trans (AList.lookup_insert _)
    · exact ih nodup.2 later

theorem GoMap.lookup_insertAll_cases {entries : List (K × V)} {m : GoMap K V} {k : K} {v : V}
    (nodup : (entries.map Prod.fst).Nodup) (found : (GoMap.insertAll entries m).lookup k = some v) :
    (k, v) ∈ entries ∨ (k ∉ entries.map Prod.fst ∧ m.lookup k = some v) := by
  by_cases inside : k ∈ entries.map Prod.fst
  · obtain ⟨⟨key, value⟩, member, rfl⟩ := List.mem_map.mp inside
    rw [lookup_insertAll_of_mem nodup member] at found
    cases found
    exact .inl member
  · rw [lookup_insertAll_of_notMem inside] at found
    exact .inr ⟨inside, found⟩

end InsertAll

/-- The map with every value replaced. -/
def GoMap.mapValues {K V W : Type} (f : V → W) (m : GoMap K V) : GoMap K W where
  entries := m.entries.map fun entry => ⟨entry.1, f entry.2⟩
  nodupKeys := by
    have keys : (m.entries.map fun entry => (⟨entry.1, f entry.2⟩ : Sigma fun _ : K => W)).keys = m.entries.keys := by
      simp [List.keys, Function.comp_def]
    rw [List.NodupKeys, keys]
    exact m.nodupKeys

@[simp] theorem GoMap.lookup_mapValues {K V W : Type} [DecidableEq K] (f : V → W) (m : GoMap K V) (k : K) :
    (m.mapValues f).lookup k = (m.lookup k).map f := by
  show (m.entries.map fun entry => (⟨entry.1, f entry.2⟩ : Sigma fun _ : K => W)).dlookup k =
    (m.entries.dlookup k).map f
  induction m.entries with
  | nil => rfl
  | cons entry rest ih =>
    obtain ⟨key, value⟩ := entry
    by_cases same : k = key
    · subst same
      simp
    · rw [List.map_cons, List.dlookup_cons_ne _ _ same, List.dlookup_cons_ne _ _ same, ih]

theorem GoMap.mapValues_mapValues {K V W X : Type} (f : V → W) (g : W → X) (m : GoMap K V) :
    (m.mapValues f).mapValues g = m.mapValues (g ∘ f) :=
  AList.ext (by simp [mapValues])

/-- The error values that callers tell apart. -/
inductive Sentinel where
  | conflict
  | capacity
  | noEffect
  | incomplete
  | exhausted
  | attemptNotFound
  | rerunRejected
  | notFound
  | alreadyExists
deriving DecidableEq, Repr

/-- An error value: the sentinels `errors.Is` finds in it, and its text. -/
structure GoError where
  wraps : List Sentinel
  text : String
deriving DecidableEq, Repr

namespace GoError

def new (text : String) : GoError := ⟨[], text⟩

end GoError

/-- `errors.Is`, where `none` is the nil error. -/
def errorIs (e : Option GoError) (sentinel : Sentinel) : Bool :=
  match e with
  | none => false
  | some e => e.wraps.contains sentinel

/-- `err.Error()` of an error that may be nil; the sources never ask a nil one. -/
def errorText : Option GoError → String
  | none => ""
  | some e => e.text

/-- `strings.Trim(s, cutset) == ""`: nothing is left once the cutset is trimmed off. -/
def onlyFrom (cutset s : String) : Bool := s.toList.all cutset.toList.contains

/-- `strings.HasPrefix`. -/
def startsWith (s start : String) : Bool := start.toList.isPrefixOf s.toList

def containsAny (s chars : String) : Bool := s.toList.any chars.toList.contains

/-- `unicode.IsSpace`. -/
def isSpace (c : Char) : Bool :=
  [0x09, 0x0a, 0x0b, 0x0c, 0x0d, 0x20, 0x85, 0xa0, 0x1680, 0x2028, 0x2029, 0x202f, 0x205f, 0x3000].contains c.toNat
    || (0x2000 ≤ c.toNat && c.toNat ≤ 0x200a)

/-- `strings.TrimSpace(s) == s`: no space at either end. -/
def spaceTrimmed (s : String) : Bool :=
  match s.toList with
  | [] => true
  | first :: rest => !isSpace first && !isSpace ((first :: rest).getLast (by simp))

/-- `strings.TrimSpace`. -/
def trimSpace (s : String) : String :=
  String.ofList ((s.toList.dropWhile isSpace).reverse.dropWhile isSpace).reverse

theorem trimSpace_eq_empty {s : String} : trimSpace s = "" ↔ ∀ c ∈ s.toList, isSpace c = true := by
  have empty (l : List Char) : String.ofList l = "" ↔ l = [] := by
    rw [← String.toList_inj, String.toList_ofList]
    rfl
  rw [trimSpace, empty, List.reverse_eq_nil_iff, List.dropWhile_eq_nil_iff]
  constructor
  · intro inner c member
    by_contra other
    have kept : s.toList.dropWhile isSpace ≠ [] := fun all => other (List.dropWhile_eq_nil_iff.mp all c member)
    have first := List.head_dropWhile_not isSpace kept
    rw [inner _ (List.mem_reverse.mpr (List.head_mem kept))] at first
    cases first
  · intro all c member
    exact all c (List.dropWhile_sublist _ |>.subset (List.mem_reverse.mp member))

/-- `strings.TrimSuffix`. -/
def trimSuffix (s suffix : String) : String :=
  if suffix.toList.isSuffixOf s.toList then String.ofList (s.toList.take (s.toList.length - suffix.toList.length))
  else s

/-- What is `base` once a suffix is trimmed off, if `base` does not have that suffix. -/
theorem trimSuffix_eq_iff {s base suffix : String} (bare : suffix.toList.isSuffixOf base.toList = false) :
    trimSuffix s suffix = base ↔ s = base ∨ s = base ++ suffix := by
  unfold trimSuffix
  split
  · rename_i ends
    obtain ⟨before, whole⟩ := List.isSuffixOf_iff_suffix.mp ends
    have trimmed : s.toList.take (s.toList.length - suffix.toList.length) = before := by
      rw [← whole, List.length_append, Nat.add_sub_cancel, List.take_left]
    rw [trimmed]
    constructor
    · rintro rfl
      refine .inr ?_
      rw [← String.toList_inj, String.toList_append, String.toList_ofList, whole]
    · rintro (rfl | rfl)
      · rw [ends] at bare
        cases bare
      · rw [String.toList_append] at whole
        rw [List.append_cancel_right whole, String.ofList_toList]
  · rename_i other
    constructor
    · exact .inl
    · rintro (rfl | rfl)
      · rfl
      · rw [String.toList_append] at other
        exact absurd (List.isSuffixOf_iff_suffix.mpr (List.suffix_append _ _)) other

/-- A calculation that went through went through in both of its parts. -/
theorem bind_eq_ok {ε α β : Type} {first : Except ε α} {next : α → Except ε β} {value : β} :
    (first >>= next) = .ok value ↔ ∃ inner, first = .ok inner ∧ next inner = .ok value := by
  cases first with
  | error e =>
    constructor
    · rintro ⟨⟩
    · rintro ⟨_, ⟨⟩, _⟩
  | ok inner =>
    constructor
    · exact fun ok => ⟨inner, rfl, ok⟩
    · rintro ⟨_, ⟨⟩, ok⟩
      exact ok

/-- `errors.Join`: nil unless one of the errors is an error. -/
def joinErrors : List GoError → Option GoError
  | [] => none
  | first :: rest => some ⟨(first :: rest).flatMap GoError.wraps, "\n".intercalate ((first :: rest).map GoError.text)⟩

/-! ## 64-bit arithmetic

The sources compute with `int64`.  A calculation is written once over its four
operations and read in two ways: `wrapping` is what the machine does, `checked`
fails on the first result out of range and on a division by zero. -/

structure Int64Ops (m : Type → Type) where
  add : Int → Int → m Int
  sub : Int → Int → m Int
  mul : Int → Int → m Int
  div : Int → Int → m Int

def wrap64 (n : Int) : Int := (n + 2 ^ 63) % 2 ^ 64 - 2 ^ 63

def Fits64 (n : Int) : Prop := -2 ^ 63 ≤ n ∧ n < 2 ^ 63

instance : DecidablePred Fits64 := fun n => inferInstanceAs (Decidable (-2 ^ 63 ≤ n ∧ n < 2 ^ 63))

def wrapping : Int64Ops Id where
  add := fun a b => wrap64 (a + b)
  sub := fun a b => wrap64 (a - b)
  mul := fun a b => wrap64 (a * b)
  div := fun a b => wrap64 (a.tdiv b)

def inRange (n : Int) : Option Int := if Fits64 n then some n else none

def checked : Int64Ops Option where
  add := fun a b => inRange (a + b)
  sub := fun a b => inRange (a - b)
  mul := fun a b => inRange (a * b)
  div := fun a b => if b = 0 then none else inRange (a.tdiv b)

theorem wrap64_of_fits {n : Int} (fits : Fits64 n) : wrap64 n = n := by
  obtain ⟨low, high⟩ := fits
  unfold wrap64
  omega

theorem inRange_of_fits {n : Int} (fits : Fits64 n) : inRange n = some n := if_pos fits

/-- Operations that return the mathematical result wherever it is in range. -/
structure Int64Ops.Exact {m : Type → Type} [Monad m] (ops : Int64Ops m) : Prop where
  add : ∀ {a b}, Fits64 (a + b) → ops.add a b = pure (a + b)
  sub : ∀ {a b}, Fits64 (a - b) → ops.sub a b = pure (a - b)
  mul : ∀ {a b}, Fits64 (a * b) → ops.mul a b = pure (a * b)
  div : ∀ {a b}, b ≠ 0 → Fits64 (a.tdiv b) → ops.div a b = pure (a.tdiv b)

theorem wrapping_exact : wrapping.Exact where
  add := wrap64_of_fits
  sub := wrap64_of_fits
  mul := wrap64_of_fits
  div := fun _ => wrap64_of_fits

theorem checked_exact : checked.Exact where
  add := inRange_of_fits
  sub := inRange_of_fits
  mul := inRange_of_fits
  div := fun nonzero fits => (if_neg nonzero).trans (inRange_of_fits fits)

end RunnerScout
