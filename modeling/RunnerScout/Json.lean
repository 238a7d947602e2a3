import Mathlib.Data.List.Basic
import Mathlib.Logic.Function.Basic

/-! # JSON documents of records

A document as an encoder writes it: the members of a record in their declared order,
each under a key of its own, some of them left out when they hold their zero value.
Two records encoded by the same declaration are compared member by member.
-/

namespace RunnerScout

inductive Json where
  | null
  | bool (value : Bool)
  | int (value : Int)
  | str (value : String)
  | array (items : List Json)
  | object (members : List (String × Json))

namespace Json

/-- A member that is left out while it holds the zero value. -/
def omitEmpty {α : Type} [DecidableEq α] (zero : α) (encode : α → Json) (value : α) : Option Json :=
  if value = zero then none else some (encode value)

theorem omitEmpty_inj {α : Type} [DecidableEq α] {zero : α} {encode : α → Json} (injective : encode.Injective)
    {first second : α} : omitEmpty zero encode first = omitEmpty zero encode second ↔ first = second := by
  refine ⟨fun same => ?_, congrArg _⟩
  unfold omitEmpty at same
  split at same <;> split at same
  · simp [*]
  · cases same
  · cases same
  · exact injective (Option.some.inj same)

def strings (values : List String) : Json := .array (values.map .str)

theorem str_injective : Function.Injective Json.str := fun _ _ same => Json.str.inj same

theorem strings_injective : Function.Injective strings := fun _ _ same =>
  List.map_injective_iff.mpr str_injective (Json.array.inj same)

@[simp] theorem strings_inj {first second : List String} : strings first = strings second ↔ first = second :=
  strings_injective.eq_iff

@[simp] theorem omitEmpty_str {zero first second : String} :
    omitEmpty zero .str first = omitEmpty zero .str second ↔ first = second :=
  omitEmpty_inj str_injective

@[simp] theorem omitEmpty_strings {zero first second : List String} :
    omitEmpty zero strings first = omitEmpty zero strings second ↔ first = second :=
  omitEmpty_inj strings_injective

@[simp] theorem omitEmpty_bool {zero first second : Bool} :
    omitEmpty zero .bool first = omitEmpty zero .bool second ↔ first = second :=
  omitEmpty_inj fun _ _ same => Json.bool.inj same

/-- The object of a record, from its members in their order. -/
def record (members : List (String × Option Json)) : Json :=
  .object (members.filterMap fun member => member.2.map fun value => (member.1, value))

def field (key : String) : Json → Option Json
  | .object members => members.lookup key
  | _ => none

/-! ## Members -/

section Members

variable {members others : List (String × Option Json)} {key name : String} {value : Option Json}

theorem field_record_absent (fresh : name ∉ members.map Prod.fst) : (record members).field name = none := by
  refine List.lookup_eq_none_iff.mpr fun entry found => ?_
  obtain ⟨member, listed, encoded⟩ := List.mem_filterMap.mp found
  obtain ⟨_, _, rfl⟩ := Option.map_eq_some_iff.mp encoded
  have other : member.1 ≠ name := fun same => fresh (same ▸ List.mem_map_of_mem listed)
  simpa using fun same => other same.symm

theorem field_record_cons (fresh : name ∉ members.map Prod.fst) :
    (record ((name, value) :: members)).field key = if key = name then value else (record members).field key := by
  cases value with
  | none =>
    show (record members).field key = _
    split
    · subst key
      exact field_record_absent fresh
    · rfl
  | some value =>
    show List.lookup key ((name, value) :: _) = _
    rw [List.lookup_cons]
    by_cases same : key = name
    · simp [same]
    · rw [beq_false_of_ne same, if_neg same]
      rfl

/-- The record of some of the members only. -/
theorem field_record_filter (nodup : (members.map Prod.fst).Nodup) (kept : String → Bool) :
    (record (members.filter fun member => kept member.1)).field key =
      if kept key then (record members).field key else none := by
  induction members with
  | nil => simp [record, field]
  | cons member rest ih =>
    obtain ⟨name, value⟩ := member
    obtain ⟨fresh, nodup⟩ := List.nodup_cons.mp nodup
    have fresh' : name ∉ (rest.filter fun member => kept member.1).map Prod.fst := fun found => by
      obtain ⟨entry, listed, same⟩ := List.mem_map.mp found
      exact fresh (List.mem_map.mpr ⟨entry, (List.mem_filter.mp listed).1, same⟩)
    rw [List.filter_cons, field_record_cons fresh]
    by_cases head : key = name
    · subst key
      cases keeps : kept name
      · simpa [keeps] using ih nodup
      · simp [field_record_cons fresh']
    · cases keeps : kept name <;> simp [head, field_record_cons fresh', ih nodup]

/-- Records of one declaration are equal if each of their members is. -/
theorem record_ext (keys : members.map Prod.fst = others.map Prod.fst) (nodup : (members.map Prod.fst).Nodup)
    (same : ∀ key, (record members).field key = (record others).field key) : members = others := by
  induction members generalizing others with
  | nil => exact (List.map_eq_nil_iff.mp keys.symm).symm
  | cons member rest ih =>
    obtain ⟨name, value⟩ := member
    obtain ⟨⟨other, value'⟩, rest', rfl⟩ : ∃ other rest', others = other :: rest' := by
      cases others with
      | nil => cases keys
      | cons other rest' => exact ⟨other, rest', rfl⟩
    simp only [List.map_cons, List.cons.injEq] at keys
    obtain ⟨rfl, keys⟩ := keys
    obtain ⟨fresh, nodup⟩ := List.nodup_cons.mp nodup
    have fresh' : name ∉ rest'.map Prod.fst := keys ▸ fresh
    have fields (key : String) := by
      have := same key
      rwa [field_record_cons fresh, field_record_cons fresh'] at this
    have first : value = value' := by simpa using fields name
    have later : rest = rest' := by
      refine ih keys nodup fun key => ?_
      by_cases head : key = name
      · rw [head, field_record_absent fresh, field_record_absent fresh']
      · simpa [head] using fields key
    rw [first, later]

/-- Two records of one declaration have the same document only if they have the same
    members. -/
theorem record_inj (keys : members.map Prod.fst = others.map Prod.fst) (nodup : (members.map Prod.fst).Nodup) :
    record members = record others ↔ members = others :=
  ⟨fun same => record_ext keys nodup fun key => congrArg (field key) same, congrArg record⟩

/-- Two documents have the same value, or none, under every key but the excepted ones. -/
def AgreeExcept (excepted : List String) (first second : Json) : Prop :=
  ∀ key, key ∉ excepted → first.field key = second.field key

theorem agreeExcept_record (keys : members.map Prod.fst = others.map Prod.fst)
    (nodup : (members.map Prod.fst).Nodup) (excepted : List String) :
    AgreeExcept excepted (record members) (record others) ↔
      members.filter (fun member => !excepted.contains member.1) =
        others.filter fun member => !excepted.contains member.1 := by
  have reading {listed : List (String × Option Json)} (distinct : (listed.map Prod.fst).Nodup) (key : String) :
      (record (listed.filter fun member => !excepted.contains member.1)).field key =
        if !excepted.contains key then (record listed).field key else none :=
    field_record_filter distinct fun name => !excepted.contains name
  have names {listed : List (String × Option Json)} :
      (listed.filter fun member => !excepted.contains member.1).map Prod.fst =
        (listed.map Prod.fst).filter fun name => !excepted.contains name := by
    rw [List.filter_map]
    rfl
  constructor
  · intro agree
    refine record_ext (by rw [names, names, keys]) (names ▸ nodup.filter _) fun key => ?_
    rw [reading nodup, reading (keys ▸ nodup)]
    by_cases free : key ∈ excepted
    · simp [free]
    · simpa [free] using agree key free
  · intro same key free
    have := reading nodup key
    rw [same, reading (keys ▸ nodup)] at this
    simpa [free] using this.symm

end Members

end Json

end RunnerScout
