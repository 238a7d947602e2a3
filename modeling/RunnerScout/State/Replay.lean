import Mathlib
import RunnerScout.State.Cluster

/-! # Replaying runs

One way for a cluster to answer every request, so that a run can be exhibited by
evaluating it: reads tell the truth, lists are in the order of the names, writes are
applied unless the script lets them fail, names are drawn longer than any before.
-/

namespace RunnerScout.State

open Interaction Lifecycle Operator

/-- What a script decides: the instants shown, the requests that fail without effect,
    the records it lets go, and the answers of the other services. -/
structure Script {γ : Type} (rules : Rules γ) (thread : Nat) where
  now : World γ → Time
  shown : ∀ w, rules.clock w.clock (now w)
  fails : ApiRequest → World γ → Bool := fun _ _ => false
  removes : World γ → String → Bool
  removable : ∀ w id, removes w id = true → rules.removable w id
  reply : (request : ApiRequest) → World γ → ApiReply request
  next : (request : ApiRequest) → World γ → γ
  outside : ∀ w request, rules.outside thread w.history request (reply request w) (next request w)

/-- A name longer than all those given. -/
def longer (names : List String) : String := String.ofList (List.replicate ((names.map String.length).sum + 1) 'a')

theorem allocationName_longer_notMem (names : List String) : allocationName (longer names) ∉ names := by
  intro member
  have shorter : (allocationName (longer names)).length ≤ (names.map String.length).sum :=
    List.le_sum_of_mem (List.mem_map_of_mem member)
  simp [allocationName, longer] at shorter
  omega

/-- Services that know nothing, and a cloud in which every create is refused. -/
def silence : (request : ApiRequest) → ApiReply request
  | .getMap _ | .createMap _ | .updateMap _ | .listMaps _ _ | .readCatalog _ | .observePrice _
  | .attemptJobs _ _ _ _ => .error (.new "unavailable")
  | .deleteMap _ | .deregisterRunner _ | .rerunFailedJobs _ _ _ => none
  | .now => 0
  | .newUUID => ""
  | .pollInterruptions => .ok []
  | .provider _ (.load _) | .provider _ (.save _ _) => .error (.new "unavailable")
  | .provider _ .now => 0
  | .provider _ (.create _ _) => ("", some errCapacity)
  | .provider _ (.createWithResources _ _) => ({}, some errCapacity)
  | .provider _ (.observe _ _) | .provider _ (.reconcileCreation _ _) => ({ known := true }, none)
  | .provider _ (.delete _ _) | .provider _ (.deregisterRunner _) => none
  | .note _ => ()
  | .rangeOrder keys => keys
  | .schedule => true

namespace Script

variable {γ : Type} {rules : Rules γ} {thread : Nat} (script : Script rules thread)

/-- The version the next write is given. -/
def put (_ : Script rules thread) (w : World γ) (cm : ConfigMap) : Except GoError ConfigMap × World γ :=
  (.ok { cm with resourceVersion := w.version + 1 },
    rules.write thread w (w.maps.insert cm.name { cm with resourceVersion := w.version + 1 }) (w.version + 1))

def unavailable : GoError := .new "etcdserver: request timed out"

def notFound : GoError := ⟨[.notFound], "not found"⟩

def answer (request : ApiRequest) (w : World γ) : ApiReply request × World γ :=
  match request with
  | .getMap name =>
    if script.fails (.getMap name) w then (.error unavailable, w)
    else
      match w.maps.lookup name with
      | some cm => (.ok cm, w)
      | none => (.error notFound, w)
  | .createMap cm =>
    if script.fails (.createMap cm) w then (.error unavailable, w)
    else
      match w.maps.lookup cm.name with
      | some _ => (.error ⟨[.alreadyExists], "already exists"⟩, w)
      | none => script.put w cm
  | .updateMap cm =>
    if script.fails (.updateMap cm) w then (.error unavailable, w)
    else
      match w.maps.lookup cm.name with
      | none => (.error notFound, w)
      | some current =>
        if cm.resourceVersion ≠ 0 ∧ current.resourceVersion ≠ cm.resourceVersion then
          (.error ⟨[.conflict], "conflict"⟩, w)
        else script.put w cm
  | .deleteMap name =>
    if script.fails (.deleteMap name) w || !script.removes w name then (some unavailable, w)
    else
      match w.maps.lookup name with
      | none => (some notFound, w)
      | some _ => (none, rules.write thread w (w.maps.erase name) (w.version + 1))
  | .listMaps owner kind =>
    if script.fails (.listMaps owner kind) w then (.error unavailable, w)
    else (.ok ((selected w.maps owner kind).insertionSort fun cm other => cm.name ≤ other.name), w)
  | .now => (script.now w, { w with clock := script.now w, history := rules.shown thread (script.now w) w.history })
  | .newUUID =>
    let uuid := longer (fleetName rules.name :: w.drawn)
    (uuid, { w with drawn := allocationName uuid :: w.drawn })
  | .rangeOrder keys => (keys, w)
  | .schedule => (true, w)
  | request => (script.reply request w, { w with history := script.next request w })

/-- The answers are among those a cluster may give. -/
theorem honest (request : ApiRequest) (w : World γ) :
    rules.semantics thread w request (script.answer request w).1 (script.answer request w).2 := by
  cases request with
  | getMap name =>
    unfold answer
    dsimp only
    split
    · exact ⟨rfl, fun missing => by simp [unavailable, errorIs, GoError.new] at missing⟩
    split
    · rename_i found
      exact ⟨rfl, found⟩
    · rename_i absent
      exact ⟨rfl, fun _ => absent⟩
  | createMap cm =>
    unfold answer
    dsimp only
    split
    · exact ⟨.inl rfl, fun missing => by simp [unavailable, errorIs, GoError.new] at missing⟩
    split
    · rename_i found
      exact ⟨.inl rfl, fun _ => by rw [found]; exact Option.some_ne_none _⟩
    · rename_i absent
      exact ⟨absent, Nat.lt_succ_self _, rfl, rfl⟩
  | updateMap cm =>
    unfold answer
    dsimp only
    split
    · exact .inl rfl
    split
    · exact .inl rfl
    rename_i current found
    split
    · exact .inl rfl
    · rename_i same
      refine ⟨⟨current, found, fun given => ?_⟩, Nat.lt_succ_self _, rfl, rfl⟩
      exact Classical.not_not.mp fun other => same ⟨given, other⟩
  | deleteMap name =>
    unfold answer
    dsimp only
    split
    · exact .inl rfl
    rename_i allowed
    split
    · exact .inl rfl
    · rename_i found
      have removes : script.removes w name = true := by
        cases removes : script.removes w name <;> simp_all
      exact ⟨by rw [found]; exact Option.some_ne_none _, script.removable w name removes, _, Nat.lt_succ_self _, rfl⟩
  | listMaps owner kind =>
    unfold answer
    dsimp only
    split
    · rfl
    · exact ⟨rfl, List.perm_insertionSort _ _⟩
  | now => exact ⟨script.shown w, rfl⟩
  | newUUID =>
    have fresh := allocationName_longer_notMem (fleetName rules.name :: w.drawn)
    rw [List.mem_cons, not_or] at fresh
    exact ⟨fresh.2, fresh.1, rfl⟩
  | rangeOrder keys => exact ⟨rfl, .refl _⟩
  | schedule => rfl
  | readCatalog | observePrice | pollInterruptions | provider | deregisterRunner | attemptJobs | rerunFailedJobs
  | note => exact ⟨_, script.outside w _, rfl⟩

end Script

end RunnerScout.State
