import Mathlib.Data.List.Sort
import Mathlib.Data.String.Basic
import RunnerScout.Lifecycle.Allocation
import RunnerScout.Provider.Adapter

/-! # The peer-poll endpoint

`GET /v1/wireguard/peers/{id}`: a machine presents the token it was booted with and is
answered the peers of its overlay network.  Whatever is wrong with a request, the answer is
the same.
-/

namespace RunnerScout.Health

open Lifecycle Provider

/-! ## Tokens -/

/-- `fromHexChar`. -/
def hexDigit (c : Char) : Option Nat :=
  if '0' ≤ c ∧ c ≤ '9' then some (c.toNat - '0'.toNat)
  else if 'a' ≤ c ∧ c ≤ 'f' then some (c.toNat - 'a'.toNat + 10)
  else if 'A' ≤ c ∧ c ≤ 'F' then some (c.toNat - 'A'.toNat + 10)
  else none

/-- `hex.DecodeString`, which fails on an odd number of digits too. -/
def decodeHex : List Char → Option (List UInt8)
  | [] => some []
  | [_] => none
  | high :: low :: rest =>
    match hexDigit high, hexDigit low, decodeHex rest with
    | some h, some l, some bytes => some (UInt8.ofNat (16 * h + l) :: bytes)
    | _, _, _ => none

section Handler

variable (sha256 : List UInt8 → Bytes32)

def hashPollToken (token : List Char) : Option Bytes32 := (decodeHex token).map sha256

/-- The hash of the token of a header `Bearer <hex>`. -/
def extractBearerHash (header : String) : Option Bytes32 :=
  if "Bearer ".toList.isPrefixOf header.toList then hashPollToken sha256 (header.toList.drop "Bearer ".toList.length)
  else none

/-! ## Peers -/

/-- What `sort.Slice` by allocation promises. -/
structure SliceSort where
  sort : List Peer → List Peer
  perm : ∀ peers, (sort peers).Perm peers
  sorted : ∀ peers, (sort peers).Pairwise fun p q => ¬q.allocationID < p.allocationID

variable (encodeToString : List UInt8 → String) (slices : SliceSort)

/-- The allocations `Snapshot` keeps. -/
def isPeer (forID networkProfile : String) (a : Allocation) : Bool :=
  !(a.id = "" || a.id = forID) && !(a.networkProfile ≠ networkProfile || a.phase ≠ .running)
    && !(a.wireGuardPublicKey.length = 0 || a.wireGuardOverlayAddress = "")

def peerOf (a : Allocation) : Peer where
  allocationID := a.id
  publicKey := encodeToString a.wireGuardPublicKey
  overlayAddress := a.wireGuardOverlayAddress
  endpoint := a.wireGuardEndpoint

/-- `Snapshot`, where `none` is the nil slice. -/
def snapshot (forID networkProfile : String) (allocations : List Allocation) : Option (List Peer) :=
  if networkProfile = "" then none
  else some (slices.sort ((allocations.filter (isPeer forID networkProfile)).map (peerOf encodeToString)))

/-! ## The handler -/

/-- What the two calls of a request to the store return. -/
structure AllocationStore where
  load : String → Except GoError Allocation
  list : Except GoError (List Allocation)

inductive Body where
  | empty
  | text (content : String)
  | peers (peers : Option (List Peer))
deriving DecidableEq, Repr

structure Response where
  status : Nat
  headers : List (String × String) := []
  body : Body := .empty
deriving DecidableEq, Repr

/-- An allocation whose token may still be presented. -/
def tokenBearing (a : Allocation) : Bool :=
  a.wireGuardPollTokenHash.length = 32 && a.phase ≠ .deleted && a.phase ≠ .timedOut

def decoyHash : List UInt8 := List.replicate 32 0

def unauthorized : Response := { status := 401 }

def serveHTTP (store : AllocationStore) (id authorization : String) : Response :=
  let presented := extractBearerHash sha256 authorization
  let loaded := store.load id
  let eligible := match loaded with
    | .error _ => false
    | .ok allocation => tokenBearing allocation
  let expected := match loaded with
    | .error _ => decoyHash
    | .ok allocation => if eligible then allocation.wireGuardPollTokenHash else decoyHash
  -- the comparison is made in any case
  let isMatch := ((presented.map Subtype.val).getD decoyHash : List UInt8) = expected
  match loaded with
  | .error _ => unauthorized
  | .ok allocation =>
    if presented = none ∨ !eligible ∨ ¬isMatch then unauthorized
    else
      match store.list with
      | .error _ =>
        { status := 500
          headers := [("Content-Type", "text/plain; charset=utf-8"), ("X-Content-Type-Options", "nosniff")]
          body := .text "peer snapshot unavailable\n" }
      | .ok allocations =>
        { status := 200
          headers := [("Content-Type", "application/json")]
          body := .peers (snapshot encodeToString slices id allocation.networkProfile allocations) }

end Handler

/-! ## Who is answered, and what -/

section Isolation

variable {sha256 : List UInt8 → Bytes32} {encodeToString : List UInt8 → String} {slices : SliceSort}
  {store : AllocationStore} {id authorization : String}

/-- The header carries the token of the allocation, in hex. -/
def Authorises (sha256 : List UInt8 → Bytes32) (authorization : String) (a : Allocation) : Prop :=
  (∃ token raw, authorization = "Bearer " ++ token ∧ decodeHex token.toList = some raw ∧
    (sha256 raw).val = a.wireGuardPollTokenHash) ∧
  a.wireGuardPollTokenHash.length = 32 ∧ a.phase ≠ .deleted ∧ a.phase ≠ .timedOut

theorem extractBearerHash_eq_some {hash : Bytes32} :
    extractBearerHash sha256 authorization = some hash ↔
      ∃ token raw, authorization = "Bearer " ++ token ∧ decodeHex token.toList = some raw ∧ sha256 raw = hash := by
  unfold extractBearerHash
  constructor
  · intro extracted
    split at extracted
    · rename_i begins
      obtain ⟨token, split⟩ := List.isPrefixOf_iff_prefix.mp begins
      obtain ⟨raw, decoded, same⟩ := Option.map_eq_some_iff.mp extracted
      rw [← split, List.drop_left] at decoded
      refine ⟨String.ofList token, raw, ?_, ?_, same⟩
      · have joined : ("Bearer " ++ String.ofList token).toList = "Bearer ".toList ++ token := by simp
        exact String.toList_inj.mp (split.symm.trans joined.symm)
      · rwa [String.toList_ofList]
    · cases extracted
  · rintro ⟨token, raw, rfl, decoded, rfl⟩
    rw [String.toList_append, if_pos (List.isPrefixOf_iff_prefix.mpr (List.prefix_append _ _)), List.drop_left,
      hashPollToken, decoded]
    rfl

theorem authorises_iff {a : Allocation} :
    Authorises sha256 authorization a ↔
      ∃ hash, extractBearerHash sha256 authorization = some hash ∧ tokenBearing a = true ∧
        hash.val = a.wireGuardPollTokenHash := by
  simp only [extractBearerHash_eq_some, tokenBearing, Authorises, Bool.and_eq_true, decide_eq_true_eq]
  constructor
  · rintro ⟨⟨token, raw, same, decoded, hashed⟩, size, deleted, timedOut⟩
    exact ⟨sha256 raw, ⟨token, raw, same, decoded, rfl⟩, ⟨⟨size, deleted⟩, timedOut⟩, hashed⟩
  · rintro ⟨hash, ⟨token, raw, same, decoded, rfl⟩, ⟨⟨size, deleted⟩, timedOut⟩, hashed⟩
    exact ⟨⟨token, raw, same, decoded, hashed⟩, size, deleted, timedOut⟩

/-- The request is authorised by the allocation it names. -/
def AuthorisedBy (sha256 : List UInt8 → Bytes32) (store : AllocationStore) (id authorization : String) (a : Allocation) : Prop :=
  store.load id = .ok a ∧ Authorises sha256 authorization a

theorem serveHTTP_authorised {a : Allocation} (authorised : AuthorisedBy sha256 store id authorization a) :
    serveHTTP sha256 encodeToString slices store id authorization =
      match store.list with
      | .error _ =>
        { status := 500
          headers := [("Content-Type", "text/plain; charset=utf-8"), ("X-Content-Type-Options", "nosniff")]
          body := .text "peer snapshot unavailable\n" }
      | .ok allocations =>
        { status := 200
          headers := [("Content-Type", "application/json")]
          body := .peers (snapshot encodeToString slices id a.networkProfile allocations) } := by
  obtain ⟨loaded, authorises⟩ := authorised
  obtain ⟨hash, extracted, bearing, same⟩ := authorises_iff.mp authorises
  unfold serveHTTP
  rw [loaded]
  dsimp only
  rw [if_neg]
  simp [extracted, bearing, same]

/-- Every request that no allocation authorises is answered alike. -/
theorem serveHTTP_unauthorised (unauthorised : ∀ a, ¬AuthorisedBy sha256 store id authorization a) :
    serveHTTP sha256 encodeToString slices store id authorization = unauthorized := by
  unfold serveHTTP
  cases loaded : store.load id with
  | error e => rfl
  | ok a =>
    dsimp only
    rw [if_pos]
    by_contra passes
    simp only [not_or, Bool.not_eq_true, not_not] at passes
    obtain ⟨presented, eligible, isMatch⟩ := passes
    obtain ⟨hash, extracted⟩ := Option.ne_none_iff_exists'.mp presented
    have bearing : tokenBearing a = true := by simpa using eligible
    rw [extracted, if_pos bearing] at isMatch
    exact unauthorised a ⟨loaded, authorises_iff.mpr ⟨hash, extracted, bearing, isMatch⟩⟩

/-- The peers an allocation is answered: each other one that is running in its network with
    a key and an address, sorted by allocation. -/
structure PeersOf (encodeToString : List UInt8 → String) (id networkProfile : String) (allocations : List Allocation)
    (peers : List Peer) : Prop where
  exact : peers.Perm ((allocations.filter fun a => a.id ≠ "" ∧ a.id ≠ id ∧ networkProfile ≠ "" ∧
    a.networkProfile = networkProfile ∧ a.phase = .running ∧ a.wireGuardPublicKey ≠ [] ∧
    a.wireGuardOverlayAddress ≠ "").map (peerOf encodeToString))
  sorted : peers.Pairwise fun p q => ¬q.allocationID < p.allocationID
  others : ∀ p ∈ peers, p.allocationID ≠ id

theorem snapshot_peersOf (networkProfile : String) (allocations : List Allocation) :
    PeersOf encodeToString id networkProfile allocations
      ((snapshot encodeToString slices id networkProfile allocations).getD []) := by
  have kept (network : networkProfile ≠ "") (a : Allocation) :
      isPeer id networkProfile a = decide (a.id ≠ "" ∧ a.id ≠ id ∧ networkProfile ≠ "" ∧
        a.networkProfile = networkProfile ∧ a.phase = .running ∧ a.wireGuardPublicKey ≠ [] ∧
        a.wireGuardOverlayAddress ≠ "") := by
    simp [isPeer, network, Bool.and_assoc]
  by_cases network : networkProfile = ""
  · rw [snapshot, if_pos network, network]
    exact ⟨by simp, .nil, by simp⟩
  · rw [snapshot, if_neg network]
    refine ⟨?_, slices.sorted _, fun p member => ?_⟩
    · rw [← List.filter_congr fun a _ => kept network a]
      exact slices.perm _
    · obtain ⟨a, inside, rfl⟩ := List.mem_map.mp ((slices.perm _).mem_iff.mp member)
      have passes := (List.mem_filter.mp inside).2
      rw [kept network a, decide_eq_true_eq] at passes
      exact passes.2.1

/-- A poll is answered 200 only with the token of the allocation it names, and then with the
    peers of that allocation; two polls without one get the same answer, whatever they ask
    for and whatever is stored. -/
theorem peer_poll_isolated (sha256 : List UInt8 → Bytes32) (encodeToString : List UInt8 → String) (slices : SliceSort) :
    (∀ store id authorization, (serveHTTP sha256 encodeToString slices store id authorization).status = 200 →
      ∃ a allocations peers, AuthorisedBy sha256 store id authorization a ∧ store.list = .ok allocations ∧
        (serveHTTP sha256 encodeToString slices store id authorization).body = .peers peers ∧
        PeersOf encodeToString id a.networkProfile allocations (peers.getD [])) ∧
    ∀ store store' id id' authorization authorization', (∀ a, ¬AuthorisedBy sha256 store id authorization a) →
      (∀ a, ¬AuthorisedBy sha256 store' id' authorization' a) →
      serveHTTP sha256 encodeToString slices store id authorization =
        serveHTTP sha256 encodeToString slices store' id' authorization' := by
  refine ⟨fun store id authorization found => ?_, fun store store' id id' authorization authorization' first second => ?_⟩
  · by_cases authorised : ∃ a, AuthorisedBy sha256 store id authorization a
    · obtain ⟨a, authorised⟩ := authorised
      rw [serveHTTP_authorised authorised] at found ⊢
      cases listed : store.list with
      | error e =>
        rw [listed] at found
        cases found
      | ok allocations =>
        exact ⟨a, allocations, _, authorised, rfl, rfl, snapshot_peersOf a.networkProfile allocations⟩
    · rw [serveHTTP_unauthorised (not_exists.mp authorised)] at found
      cases found
  · rw [serveHTTP_unauthorised first, serveHTTP_unauthorised second]

end Isolation

section Instances

/-- A hash that is the sum of the bytes, over and over. -/
def sumHash (raw : List UInt8) : Bytes32 := ⟨List.replicate 32 (raw.foldl UInt8.add (UInt8.ofNat 0)), List.length_replicate⟩

def byAllocation (p q : Peer) : Prop := p.allocationID ≤ q.allocationID

instance : DecidableRel byAllocation := fun p q => inferInstanceAs (Decidable (p.allocationID ≤ q.allocationID))

instance : Std.Total byAllocation := ⟨fun p q => le_total p.allocationID q.allocationID⟩

instance : IsTrans Peer byAllocation := ⟨fun p _ _ => le_trans (a := p.allocationID)⟩

theorem pairwise_byAllocation (peers : List Peer) :
    (peers.insertionSort byAllocation).Pairwise fun p q => ¬q.allocationID < p.allocationID :=
  (List.pairwise_insertionSort byAllocation peers).imp fun ordered => not_lt.mpr (show _ ≤ _ from ordered)

def insertionSlices : SliceSort where
  sort := fun peers => peers.insertionSort byAllocation
  perm := List.perm_insertionSort byAllocation
  sorted := pairwise_byAllocation

def meshed (id : String) (byte : UInt8) : Allocation :=
  { id, phase := .running, networkProfile := "mesh", wireGuardPublicKey := [byte], wireGuardOverlayAddress := "10.42.0." ++ id,
    wireGuardPollTokenHash := List.replicate 32 byte }

def meshStore : AllocationStore where
  load := fun id => if id = "b" then .ok (meshed "b" 0xab) else .error (.new "not found")
  list := .ok [meshed "c" 1, meshed "b" 0xab, meshed "a" 2, { meshed "d" 3 with phase := .creating }]

/-- The token of `b` is answered its two running peers; without it the answer does not tell
    `b` from an allocation that does not exist. -/
theorem peer_poll_isolated_meshStore :
    (serveHTTP sumHash (fun _ => "key") insertionSlices meshStore "b" "Bearer AB").status = 200 ∧
    (∃ a allocations peers, AuthorisedBy sumHash meshStore "b" "Bearer AB" a ∧ meshStore.list = .ok allocations ∧
      (serveHTTP sumHash (fun _ => "key") insertionSlices meshStore "b" "Bearer AB").body = .peers peers ∧
      PeersOf (fun _ => "key") "b" a.networkProfile allocations (peers.getD [])) ∧
    serveHTTP sumHash (fun _ => "key") insertionSlices meshStore "b" "Bearer 00" =
      serveHTTP sumHash (fun _ => "key") insertionSlices meshStore "x" "" := by
  obtain ⟨answered, alike⟩ := peer_poll_isolated sumHash (fun _ => "key") insertionSlices
  have wrongToken : ∀ a, ¬AuthorisedBy sumHash meshStore "b" "Bearer 00" a := by
    rintro a ⟨loaded, authorises⟩
    cases loaded
    obtain ⟨hash, extracted, _, same⟩ := authorises_iff.mp authorises
    cases extracted
    revert same
    decide
  have unknown : ∀ a, ¬AuthorisedBy sumHash meshStore "x" "" a := by
    rintro a ⟨loaded, _⟩
    cases loaded
  have found : (serveHTTP sumHash (fun _ => "key") insertionSlices meshStore "b" "Bearer AB").status = 200 := by decide
  exact ⟨found, answered meshStore "b" "Bearer AB" found, alike _ _ _ _ _ _ wrongToken unknown⟩

end Instances

end RunnerScout.Health
