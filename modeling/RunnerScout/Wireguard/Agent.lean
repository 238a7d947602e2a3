import RunnerScout.Netip
import RunnerScout.Provider.Adapter

/-! # The agent of a virtual machine

The agent brings a tunnel up with the peers it was booted with and from then on lets it
follow the list the controller answers.  What it believes to be configured is a map of its
own; the tunnel is asked to add and to remove single peers, and each of these calls may
fail.

The order in which a map is ranged over is a reply like any other.
-/

namespace RunnerScout.Wireguard

open Interaction Program Provider

variable {next : List Peer} {err : Option GoError}

/-! ## Peers -/

structure AddrPort where
  addr : Addr
  port : UInt16
deriving DecidableEq

/-- `tunnel.Peer`, where `none` is the zero value of an address, which is not valid. -/
structure TunnelPeer where
  publicKey : Bytes32
  overlayAddress : Option Addr
  endpoint : Option AddrPort := none
deriving DecidableEq

/-- The textual forms the agent reads and writes. -/
structure Formats where
  decodeString : String → Except GoError (List UInt8)
  encodeToString : List UInt8 → String
  parseAddr : String → Except GoError Addr
  parseAddrPort : String → Except GoError AddrPort

section Formats

variable (formats : Formats)

/-- The text of an error under `%v`. -/
def shownError : Option GoError → String
  | none => "<nil>"
  | some e => e.text

/-- The 32 bytes of a key in base64, or the error the callers print. -/
def decodeKey (text : String) : Except (Option GoError) Bytes32 :=
  match formats.decodeString text with
  | .error e => .error (some e)
  | .ok raw => if size : raw.length = 32 then .ok ⟨raw, size⟩ else .error none

def decodePeer (p : Peer) : Except GoError TunnelPeer :=
  match decodeKey formats p.publicKey with
  | .error err => .error (.new ("agent: peer " ++ p.allocationID ++ " has a malformed public key: " ++ shownError err))
  | .ok pub =>
    match formats.parseAddr p.overlayAddress with
    | .error err =>
      .error ⟨err.wraps, "agent: peer " ++ p.allocationID ++ " has a malformed overlay address "
        ++ p.overlayAddress.quote ++ ": " ++ err.text⟩
    | .ok overlay =>
      if p.endpoint = "" then .ok { publicKey := pub, overlayAddress := some overlay }
      else
        match formats.parseAddrPort p.endpoint with
        | .error err =>
          .error ⟨err.wraps, "agent: peer " ++ p.allocationID ++ " has a malformed endpoint "
            ++ p.endpoint.quote ++ ": " ++ err.text⟩
        | .ok endpoint => .ok { publicKey := pub, overlayAddress := some overlay, endpoint := some endpoint }

/-! ## Reconciliation -/

inductive TunnelRequest where
  | addPeer (p : TunnelPeer)
  | removePeer (pub : Bytes32)
  | rangeOrder (keys : List Bytes32)
  /-- One poll of the controller. -/
  | poll

abbrev TunnelReply : TunnelRequest → Type
  | .addPeer _ | .removePeer _ => Option GoError
  | .rangeOrder _ => List Bytes32
  | .poll => Except GoError (List Peer)

abbrev TunnelCalls : Signature := ⟨TunnelRequest, TunnelReply⟩

structure Wanted where
  peer : Peer
  tunnel : TunnelPeer

/-- The loop over the polled list: what is wanted under each key, and what was malformed. -/
def wantedByKey : List Peer → GoMap Bytes32 Wanted → List GoError → GoMap Bytes32 Wanted × List GoError
  | [], wanted, errs => (wanted, errs)
  | p :: rest, wanted, errs =>
    match decodePeer formats p with
    | .error err => wantedByKey rest wanted (errs ++ [err])
    | .ok decoded => wantedByKey rest (wanted.insert decoded.publicKey ⟨p, decoded⟩) errs

/-- The map of configured peers and the errors met so far. -/
abbrev Progress := GoMap Bytes32 Peer × List GoError

/-- The loop over the peers that are wanted. -/
def addWanted (current : GoMap Bytes32 Peer) (wanted : GoMap Bytes32 Wanted) :
    List Bytes32 → Progress → Program TunnelCalls Progress
  | [], progress => return progress
  | pub :: rest, (updated, errs) => do
    match wanted.lookup pub with
    | none => addWanted current wanted rest (updated, errs)
    | some w =>
      if pub ∈ current then addWanted current wanted rest (updated, errs)
      else
        match ← ask (S := TunnelCalls) (.addPeer w.tunnel) with
        | some err =>
          addWanted current wanted rest
            (updated, errs ++ [⟨err.wraps, "agent: add peer " ++ w.peer.allocationID ++ ": " ++ err.text⟩])
        | none => addWanted current wanted rest (updated.insert pub w.peer, errs)

/-- The loop over the peers that were configured. -/
def removeUnwanted (current : GoMap Bytes32 Peer) (wanted : GoMap Bytes32 Wanted) :
    List Bytes32 → Progress → Program TunnelCalls Progress
  | [], progress => return progress
  | pub :: rest, (updated, errs) => do
    match current.lookup pub with
    | none => removeUnwanted current wanted rest (updated, errs)
    | some peer =>
      if pub ∈ wanted then removeUnwanted current wanted rest (updated, errs)
      else
        match ← ask (S := TunnelCalls) (.removePeer pub) with
        | some err =>
          removeUnwanted current wanted rest
            (updated, errs ++ [⟨err.wraps, "agent: remove peer " ++ peer.allocationID ++ ": " ++ err.text⟩])
        | none => removeUnwanted current wanted rest (updated.erase pub, errs)

def reconcile (current : GoMap Bytes32 Peer) (next : List Peer) :
    Program TunnelCalls (GoMap Bytes32 Peer × Option GoError) := do
  let (wanted, errs) := wantedByKey formats next ∅ []
  let order ← ask (S := TunnelCalls) (.rangeOrder wanted.keys)
  let progress ← addWanted current wanted order (current, errs)
  let order ← ask (S := TunnelCalls) (.rangeOrder current.keys)
  let (updated, errs) ← removeUnwanted current wanted order progress
  return (updated, joinErrors errs)

/-- The loop of `Run` over a number of ticks.  A failed poll is logged and left to the
    next tick, and so are the errors of a reconciliation. -/
def runPolls : Nat → GoMap Bytes32 Peer → Program TunnelCalls (GoMap Bytes32 Peer)
  | 0, current => return current
  | ticks + 1, current => do
    match ← ask (S := TunnelCalls) .poll with
    | .error _ => runPolls ticks current
    | .ok peers =>
      let (current, _) ← reconcile formats current peers
      runPolls ticks current

/-! ## Bringing the tunnel up -/

structure Payload where
  privateKey : String
  overlayAddress : String
  peers : List Peer

structure TunnelConfig where
  privateKey : Bytes32
  overlayAddress : Option Addr
  listenPort : UInt16
  peers : List TunnelPeer

def defaultListenPort : UInt16 := 51820

/-- The loop of `InitialConfig` over the peers of the payload. -/
def initialPeers : List Peer → List TunnelPeer → GoMap Bytes32 Peer → List GoError →
    List TunnelPeer × GoMap Bytes32 Peer × List GoError
  | [], peers, current, errs => (peers, current, errs)
  | p :: rest, peers, current, errs =>
    match decodePeer formats p with
    | .error err => initialPeers rest peers current (errs ++ [err])
    | .ok decoded => initialPeers rest (peers ++ [decoded]) (current.insert decoded.publicKey p) errs

/-- The configuration, the map of what it configures, and the error that tells which peers
    were skipped. -/
def initialConfig (payload : Payload) : Except GoError (TunnelConfig × GoMap Bytes32 Peer × Option GoError) :=
  match decodeKey formats payload.privateKey with
  | .error err => .error (.new ("agent: payload has a malformed private key: " ++ shownError err))
  | .ok priv =>
    match formats.parseAddr payload.overlayAddress with
    | .error err =>
      .error ⟨err.wraps, "agent: payload has a malformed overlay address " ++ payload.overlayAddress.quote
        ++ ": " ++ err.text⟩
    | .ok overlay =>
      let (peers, current, errs) := initialPeers formats payload.peers [] ∅ []
      .ok ({ privateKey := priv, overlayAddress := some overlay, listenPort := defaultListenPort, peers := peers },
        current, joinErrors errs)

/-- The loop of `BringUp` over the configured peers. -/
def checkPeers : List TunnelPeer → GoMap Bytes32 Bool → Option GoError
  | [], _ => none
  | p :: rest, seen =>
    let key := formats.encodeToString p.publicKey.val
    if p.overlayAddress = none then
      some (.new ("wireguard/tunnel: peer with public key " ++ key ++ " has no overlay address"))
    else if (seen.lookup p.publicKey).getD false then
      some (.new ("wireguard/tunnel: duplicate peer public key " ++ key))
    else checkPeers rest (seen.insert p.publicKey true)

/-- The checks `BringUp` makes of a configuration before it creates anything. -/
def checkConfig (cfg : TunnelConfig) : Option GoError :=
  if cfg.overlayAddress = none then some (.new "wireguard/tunnel: overlay address is required")
  else checkPeers formats cfg.peers ∅

end Formats

/-! ## The tunnel -/

/-- The peers a tunnel has, by their keys. -/
abbrev Table := GoMap Bytes32 TunnelPeer

/-- What a call makes of the tunnel: one that fails leaves it as it was. -/
def configure (table : Table) : Exchange TunnelCalls → Table
  | ⟨.addPeer p, none⟩ => table.insert p.publicKey p
  | ⟨.removePeer pub, none⟩ => table.erase pub
  | _ => table

def configured (table : Table) (trace : List (Exchange TunnelCalls)) : Table := trace.foldl configure table

theorem configured_append (table : Table) (first second : List (Exchange TunnelCalls)) :
    configured table (first ++ second) = configured (configured table first) second := List.foldl_append

theorem configured_cons (table : Table) (x : Exchange TunnelCalls) (later : List (Exchange TunnelCalls)) :
    configured table (x :: later) = configured (configure table x) later := rfl

/-- A call to the tunnel that failed. -/
def failed : Exchange TunnelCalls → Bool
  | ⟨.addPeer _, some _⟩ | ⟨.removePeer _, some _⟩ => true
  | _ => false

/-- A range over a map visits each of its keys once. -/
def Ranges : Exchange TunnelCalls → Prop
  | ⟨.rangeOrder keys, order⟩ => order.Perm keys
  | _ => True

/-- The map has the keys of the tunnel's peers. -/
def Mirrors (current : GoMap Bytes32 Peer) (table : Table) : Prop := ∀ pub, pub ∈ current ↔ pub ∈ table

section Mirror

variable {formats : Formats} {current updated after : GoMap Bytes32 Peer} {wanted : GoMap Bytes32 Wanted}
  {errs failures : List GoError} {table : Table} {trace : List (Exchange TunnelCalls)} {pub : Bytes32}

theorem Mirrors.insert (mirrors : Mirrors current table) (peer : Peer) (p : TunnelPeer) :
    Mirrors (current.insert p.publicKey peer) (table.insert p.publicKey p) := by
  intro pub
  rw [AList.mem_insert, AList.mem_insert, mirrors pub]

theorem Mirrors.erase (mirrors : Mirrors current table) (pub : Bytes32) :
    Mirrors (current.erase pub) (table.erase pub) := by
  intro other
  rw [AList.mem_erase, AList.mem_erase, mirrors other]

/-- What is wanted under a key is a peer with that key. -/
def Keyed (wanted : GoMap Bytes32 Wanted) : Prop := ∀ pub w, wanted.lookup pub = some w → w.tunnel.publicKey = pub

theorem Keyed.insert (keyed : Keyed wanted) (p : Peer) (decoded : TunnelPeer) :
    Keyed (wanted.insert decoded.publicKey ⟨p, decoded⟩) := by
  intro pub w found
  by_cases same : pub = decoded.publicKey
  · subst same
    rw [AList.lookup_insert] at found
    cases found
    rfl
  · rw [AList.lookup_insert_ne same] at found
    exact keyed pub w found

/-- The keys of the peers in a list that decode. -/
def Lists (formats : Formats) (next : List Peer) (pub : Bytes32) : Prop :=
  ∃ p ∈ next, ∃ decoded, decodePeer formats p = .ok decoded ∧ decoded.publicKey = pub

theorem wantedByKey_keyed : ∀ {next : List Peer} {wanted : GoMap Bytes32 Wanted} {errs : List GoError},
    Keyed wanted → Keyed (wantedByKey formats next wanted errs).1
  | [], _, _, keyed => keyed
  | p :: rest, wanted, errs, keyed => by
    rw [wantedByKey]
    cases decodePeer formats p with
    | error err => exact wantedByKey_keyed keyed
    | ok decoded => exact wantedByKey_keyed (keyed.insert p decoded)

theorem mem_wantedByKey : ∀ {next : List Peer} {wanted : GoMap Bytes32 Wanted} {errs : List GoError},
    pub ∈ (wantedByKey formats next wanted errs).1 ↔ Lists formats next pub ∨ pub ∈ wanted
  | [], wanted, errs => by simp [wantedByKey, Lists]
  | p :: rest, wanted, errs => by
    rw [wantedByKey]
    cases decodes : decodePeer formats p with
    | error err =>
      rw [mem_wantedByKey]
      simp [Lists, decodes]
    | ok decoded =>
      rw [mem_wantedByKey, AList.mem_insert]
      simp only [Lists, List.exists_mem_cons_iff, decodes, Except.ok.injEq, exists_eq_left']
      rw [eq_comm (a := pub), or_left_comm, or_assoc]

/-- Each peer that is added enters the map and the tunnel, or neither. -/
theorem addWanted_mirrors (keyed : Keyed wanted) : ∀ {order : List Bytes32} {updated : GoMap Bytes32 Peer}
    {errs : List GoError} {table : Table} {trace : List (Exchange TunnelCalls)},
    (addWanted current wanted order (updated, errs)).Returns trace (after, failures) →
    Mirrors updated table → Mirrors after (configured table trace)
  | [], updated, errs, table, trace, run, mirrors => by
    obtain ⟨rfl, same⟩ := returns_pure.mp run
    cases same
    exact mirrors
  | pub :: rest, updated, errs, table, trace, run, mirrors => by
    rw [addWanted] at run
    cases found : wanted.lookup pub with
    | none =>
      rw [found] at run
      exact addWanted_mirrors keyed run mirrors
    | some w =>
      rw [found] at run
      dsimp only at run
      split at run
      · exact addWanted_mirrors keyed run mirrors
      obtain ⟨reply, later, rfl, goesOn⟩ := returns_ask.mp run
      rw [configured_cons]
      cases reply with
      | some err => exact addWanted_mirrors keyed goesOn mirrors
      | none =>
        refine addWanted_mirrors keyed goesOn ?_
        rw [← keyed pub w found]
        exact mirrors.insert w.peer w.tunnel

/-- Each peer that is removed leaves the map and the tunnel, or neither. -/
theorem removeUnwanted_mirrors : ∀ {order : List Bytes32} {updated : GoMap Bytes32 Peer}
    {errs : List GoError} {table : Table} {trace : List (Exchange TunnelCalls)},
    (removeUnwanted current wanted order (updated, errs)).Returns trace (after, failures) →
    Mirrors updated table → Mirrors after (configured table trace)
  | [], updated, errs, table, trace, run, mirrors => by
    obtain ⟨rfl, same⟩ := returns_pure.mp run
    cases same
    exact mirrors
  | pub :: rest, updated, errs, table, trace, run, mirrors => by
    rw [removeUnwanted] at run
    cases found : current.lookup pub with
    | none =>
      rw [found] at run
      exact removeUnwanted_mirrors run mirrors
    | some peer =>
      rw [found] at run
      dsimp only at run
      split at run
      · exact removeUnwanted_mirrors run mirrors
      obtain ⟨reply, later, rfl, goesOn⟩ := returns_ask.mp run
      rw [configured_cons]
      cases reply with
      | some err => exact removeUnwanted_mirrors goesOn mirrors
      | none => exact removeUnwanted_mirrors goesOn (mirrors.erase pub)

/-- The parts of one reconciliation. -/
theorem reconcile_returns (run : (reconcile formats current next).Returns trace (after, err)) :
    ∃ added kept order order' first second errs failures,
      trace = ⟨.rangeOrder (wantedByKey formats next ∅ []).1.keys, order⟩ ::
        (first ++ ⟨.rangeOrder current.keys, order'⟩ :: second) ∧
      (addWanted current (wantedByKey formats next ∅ []).1 order (current, kept)).Returns first (added, errs) ∧
      (removeUnwanted current (wantedByKey formats next ∅ []).1 order' (added, errs)).Returns second (after, failures) := by
  obtain ⟨order, afterOrder, rfl, adding⟩ := returns_ask.mp run
  obtain ⟨first, afterAdding, ⟨added, errs⟩, rfl, adds, ordering⟩ := returns_bind.mp adding
  obtain ⟨order', afterOrder', rfl, removing⟩ := returns_ask.mp ordering
  obtain ⟨second, ends, ⟨removed, failures⟩, rfl, removes, joined⟩ := returns_bind.mp removing
  obtain ⟨rfl, same⟩ := returns_pure.mp joined
  cases same
  exact ⟨added, _, order, order', first, second, errs, failures, by simp, adds, removes⟩

theorem reconcile_mirrors (run : (reconcile formats current next).Returns trace (after, err))
    (mirrors : Mirrors current table) :
    Mirrors after (configured table trace) := by
  obtain ⟨added, kept, order, order', first, second, errs, failures, rfl, adds, removes⟩ := reconcile_returns run
  have keyed : Keyed (wantedByKey formats next ∅ []).1 := wantedByKey_keyed fun _ _ found => by cases found
  rw [configured_cons, configured_append, configured_cons]
  exact removeUnwanted_mirrors removes (addWanted_mirrors keyed adds mirrors)

theorem runPolls_mirrors : ∀ {ticks : Nat} {current : GoMap Bytes32 Peer} {table : Table}
    {trace : List (Exchange TunnelCalls)}, (runPolls formats ticks current).Returns trace after →
    Mirrors current table → Mirrors after (configured table trace)
  | 0, current, table, trace, run, mirrors => by
    obtain ⟨rfl, rfl⟩ := returns_pure.mp run
    exact mirrors
  | ticks + 1, current, table, trace, run, mirrors => by
    obtain ⟨reply, later, rfl, polled⟩ := returns_ask.mp run
    rw [configured_cons]
    cases reply with
    | error e => exact runPolls_mirrors polled mirrors
    | ok peers =>
      obtain ⟨first, second, ⟨updated, err⟩, rfl, reconciled, goesOn⟩ := returns_bind.mp polled
      rw [configured_append]
      exact runPolls_mirrors goesOn (reconcile_mirrors reconciled mirrors)

/-! ### Calls that do not fail -/

theorem addWanted_keys : ∀ {order : List Bytes32} {updated : GoMap Bytes32 Peer} {errs : List GoError}
    {trace : List (Exchange TunnelCalls)},
    (addWanted current wanted order (updated, errs)).Returns trace (after, failures) → (∀ x ∈ trace, failed x = false) →
    (pub ∈ after ↔ pub ∈ updated ∨ (pub ∈ order ∧ pub ∈ wanted ∧ pub ∉ current))
  | [], updated, errs, trace, run, _ => by
    cases run.of_pure
    simp
  | key :: rest, updated, errs, trace, run, succeeds => by
    rw [addWanted] at run
    cases found : wanted.lookup key with
    | none =>
      rw [found] at run
      have unwanted : key ∉ wanted := AList.lookup_eq_none.mp found
      rw [addWanted_keys run succeeds, List.mem_cons]
      grind
    | some w =>
      have member : key ∈ wanted := AList.lookup_isSome.mp (by rw [found]; rfl)
      rw [found] at run
      dsimp only at run
      split at run
      · rename_i already
        rw [addWanted_keys run succeeds, List.mem_cons]
        grind
      rename_i missing
      obtain ⟨reply, later, rfl, goesOn⟩ := returns_ask.mp run
      obtain ⟨first, rest⟩ := List.forall_mem_cons.mp succeeds
      cases reply with
      | some err => cases first
      | none =>
        rw [addWanted_keys goesOn rest, AList.mem_insert, List.mem_cons]
        grind

theorem removeUnwanted_keys : ∀ {order : List Bytes32} {updated : GoMap Bytes32 Peer} {errs : List GoError}
    {trace : List (Exchange TunnelCalls)},
    (removeUnwanted current wanted order (updated, errs)).Returns trace (after, failures) → (∀ x ∈ trace, failed x = false) →
    (pub ∈ after ↔ pub ∈ updated ∧ ¬(pub ∈ order ∧ pub ∈ current ∧ pub ∉ wanted))
  | [], updated, errs, trace, run, _ => by
    cases run.of_pure
    simp
  | key :: rest, updated, errs, trace, run, succeeds => by
    rw [removeUnwanted] at run
    cases found : current.lookup key with
    | none =>
      rw [found] at run
      have absent : key ∉ current := AList.lookup_eq_none.mp found
      rw [removeUnwanted_keys run succeeds, List.mem_cons]
      grind
    | some peer =>
      have member : key ∈ current := AList.lookup_isSome.mp (by rw [found]; rfl)
      rw [found] at run
      dsimp only at run
      split at run
      · rename_i still
        rw [removeUnwanted_keys run succeeds, List.mem_cons]
        grind
      rename_i unwanted
      obtain ⟨reply, later, rfl, goesOn⟩ := returns_ask.mp run
      obtain ⟨first, rest⟩ := List.forall_mem_cons.mp succeeds
      cases reply with
      | some err => cases first
      | none =>
        rw [removeUnwanted_keys goesOn rest, AList.mem_erase, List.mem_cons]
        grind

/-- A reconciliation without failures leaves the keys of the polled list. -/
theorem reconcile_keys (run : (reconcile formats current next).Returns trace (after, err))
    (ranges : ∀ x ∈ trace, Ranges x) (succeeds : ∀ x ∈ trace, failed x = false) :
    pub ∈ after ↔ Lists formats next pub := by
  obtain ⟨added, kept, order, order', first, second, errs, failures, rfl, adds, removes⟩ := reconcile_returns run
  have visits : order.Perm (wantedByKey formats next ∅ []).1.keys := ranges _ List.mem_cons_self
  have visits' : order'.Perm current.keys := ranges ⟨.rangeOrder current.keys, order'⟩ (by simp)
  have inOrder : pub ∈ order ↔ pub ∈ (wantedByKey formats next ∅ []).1 := visits.mem_iff.trans AList.mem_keys.symm
  have inOrder' : pub ∈ order' ↔ pub ∈ current := visits'.mem_iff.trans AList.mem_keys.symm
  rw [removeUnwanted_keys removes fun x member => succeeds x (by simp [member]),
    addWanted_keys adds fun x member => succeeds x (by simp [member]), inOrder, inOrder']
  have listed : pub ∈ (wantedByKey formats next ∅ []).1 ↔ Lists formats next pub := by
    rw [mem_wantedByKey]
    exact or_iff_left (AList.notMem_empty pub)
  rw [← listed]
  grind

/-- The map of the agent mirrors the tunnel after every reconciliation, whichever of its
    calls fail and in whatever order it visits its maps, and so after any number of polls;
    without a failure both have the keys of the polled list. -/
theorem agent_mirrors_tunnel (formats : Formats) (current : GoMap Bytes32 Peer) (table : Table)
    (mirrors : Mirrors current table) :
    (∀ next trace after err, (reconcile formats current next).Returns trace (after, err) →
      Mirrors after (configured table trace) ∧
      ((∀ x ∈ trace, Ranges x) → (∀ x ∈ trace, failed x = false) → ∀ pub, pub ∈ after ↔ Lists formats next pub)) ∧
    ∀ ticks trace after, (runPolls formats ticks current).Returns trace after → Mirrors after (configured table trace) :=
  ⟨fun _ _ _ _ run => ⟨reconcile_mirrors run mirrors, fun ranges succeeds _ => reconcile_keys run ranges succeeds⟩,
    fun _ _ _ run => runPolls_mirrors run mirrors⟩

end Mirror

/-! ## The configuration the agent starts from -/

section Initial

variable {formats : Formats} {payload : Payload} {cfg : TunnelConfig} {current : GoMap Bytes32 Peer}
  {skipped : Option GoError}

/-- The peers of a list that decode, in its order. -/
def decodedPeers (formats : Formats) (peers : List Peer) : List TunnelPeer :=
  peers.filterMap fun p => (decodePeer formats p).toOption

theorem initialPeers_peers : ∀ (list : List Peer) (peers : List TunnelPeer) (current : GoMap Bytes32 Peer)
    (errs : List GoError), (initialPeers formats list peers current errs).1 = peers ++ decodedPeers formats list
  | [], peers, current, errs => by simp [initialPeers, decodedPeers]
  | p :: rest, peers, current, errs => by
    rw [initialPeers, decodedPeers, List.filterMap_cons]
    cases decodePeer formats p with
    | error err => exact initialPeers_peers rest peers current (errs ++ [err])
    | ok decoded =>
      dsimp only [Except.toOption]
      rw [initialPeers_peers, List.append_assoc]
      rfl

theorem initialPeers_keys {pub : Bytes32} : ∀ (list : List Peer) (peers : List TunnelPeer) (current : GoMap Bytes32 Peer)
    (errs : List GoError), (pub ∈ (initialPeers formats list peers current errs).2.1 ↔
      pub ∈ (decodedPeers formats list).map TunnelPeer.publicKey ∨ pub ∈ current)
  | [], peers, current, errs => by simp [initialPeers, decodedPeers]
  | p :: rest, peers, current, errs => by
    rw [initialPeers, decodedPeers, List.filterMap_cons]
    cases decodePeer formats p with
    | error err => exact initialPeers_keys rest peers current (errs ++ [err])
    | ok decoded =>
      dsimp only [Except.toOption]
      rw [initialPeers_keys, AList.mem_insert, List.map_cons, List.mem_cons, or_left_comm, or_assoc]
      rfl

theorem decodePeer_overlay {p : Peer} {decoded : TunnelPeer} (decodes : decodePeer formats p = .ok decoded) :
    decoded.overlayAddress ≠ none := by
  unfold decodePeer at decodes
  split at decodes
  · cases decodes
  split at decodes
  · cases decodes
  split at decodes
  · cases decodes
    exact Option.some_ne_none _
  split at decodes
  · cases decodes
  · cases decodes
    exact Option.some_ne_none _

theorem mem_decodedPeers {peers : List Peer} {decoded : TunnelPeer} (member : decoded ∈ decodedPeers formats peers) :
    ∃ p ∈ peers, decodePeer formats p = .ok decoded := by
  obtain ⟨p, inside, decodes⟩ := List.mem_filterMap.mp member
  refine ⟨p, inside, ?_⟩
  cases result : decodePeer formats p with
  | error err =>
    rw [result] at decodes
    cases decodes
  | ok other =>
    rw [result] at decodes
    cases decodes
    rfl

/-- `BringUp` takes a list of peers with addresses if and only if no key is in it twice. -/
theorem checkPeers_eq_none : ∀ {peers : List TunnelPeer} {seen : GoMap Bytes32 Bool},
    (∀ p ∈ peers, p.overlayAddress ≠ none) → (∀ pub, pub ∈ seen → seen.lookup pub = some true) →
    (checkPeers formats peers seen = none ↔
      (peers.map TunnelPeer.publicKey).Nodup ∧ ∀ p ∈ peers, p.publicKey ∉ seen)
  | [], seen, _, _ => by simp [checkPeers]
  | p :: rest, seen, addresses, marked => by
    obtain ⟨address, addresses⟩ := List.forall_mem_cons.mp addresses
    rw [checkPeers, if_neg address]
    by_cases known : p.publicKey ∈ seen
    · rw [if_pos (by rw [marked _ known]; rfl)]
      simp [known]
    · have unseen : (seen.lookup p.publicKey).getD false = false := by rw [AList.lookup_eq_none.mpr known]; rfl
      have marked' : ∀ pub, pub ∈ seen.insert p.publicKey true → (seen.insert p.publicKey true).lookup pub = some true := by
        intro pub member
        by_cases same : pub = p.publicKey
        · rw [same, AList.lookup_insert]
        · rw [AList.lookup_insert_ne same]
          exact marked pub ((AList.mem_insert _).mp member |>.resolve_left same)
      rw [if_neg (by rw [unseen]; exact Bool.false_ne_true), checkPeers_eq_none addresses marked']
      simp only [AList.mem_insert, List.map_cons, List.nodup_cons, List.mem_map, List.mem_cons, forall_eq_or_imp]
      grind

theorem initialConfig_ok (built : initialConfig formats payload = .ok (cfg, current, skipped)) :
    cfg.overlayAddress ≠ none ∧ cfg.peers = decodedPeers formats payload.peers ∧
      ∀ pub, pub ∈ current ↔ pub ∈ cfg.peers.map TunnelPeer.publicKey := by
  unfold initialConfig at built
  split at built
  · cases built
  split at built
  · cases built
  · cases built
    refine ⟨Option.some_ne_none _, initialPeers_peers .., fun pub => ?_⟩
    rw [initialPeers_keys, initialPeers_peers, List.nil_append]
    exact or_iff_left (AList.notMem_empty pub)

/-- The keys of the map are those of the configured peers.  `BringUp` finds nothing wrong
    with the configuration, and each key is configured once, if and only if no two of the
    payload's peers that decode have one key. -/
theorem initialConfig_accepted (built : initialConfig formats payload = .ok (cfg, current, skipped)) :
    let Distinct := ((decodedPeers formats payload.peers).map TunnelPeer.publicKey).Nodup
    (∀ pub, pub ∈ current ↔ pub ∈ cfg.peers.map TunnelPeer.publicKey) ∧
    (checkConfig formats cfg = none ↔ Distinct) ∧ ((cfg.peers.map TunnelPeer.publicKey).Nodup ↔ Distinct) := by
  obtain ⟨overlay, peers, keys⟩ := initialConfig_ok built
  rw [← peers]
  refine ⟨keys, ?_, .rfl⟩
  have addresses : ∀ p ∈ cfg.peers, p.overlayAddress ≠ none := by
    intro p member
    rw [peers] at member
    obtain ⟨_, _, decodes⟩ := mem_decodedPeers member
    exact decodePeer_overlay decodes
  rw [checkConfig, if_neg overlay, checkPeers_eq_none addresses fun pub member => absurd member (AList.notMem_empty pub)]
  exact and_iff_left fun p _ => AList.notMem_empty p.publicKey

end Initial

section Instances

/-- A key is written as so many letters as each of its bytes says. -/
def letterFormats : Formats where
  decodeString := fun text => .ok (List.replicate 32 (UInt8.ofNat text.length))
  encodeToString := fun _ => "key"
  parseAddr := fun text => if text = "" then .error (.new "unable to parse IP") else .ok ⟨.v4, 0x0a2a0001, by decide⟩
  parseAddrPort := fun _ => .error (.new "not an ip:port")

def peerWith (allocationID publicKey overlayAddress : String) : Peer := ⟨allocationID, publicKey, overlayAddress, ""⟩

def keyOf (byte : UInt8) : Bytes32 := ⟨List.replicate 32 byte, rfl⟩

/-- A tunnel whose calls all succeed. -/
def willing : (request : TunnelRequest) → TunnelReply request
  | .addPeer _ | .removePeer _ => none
  | .rangeOrder keys => keys
  | .poll => .ok []

/-- One peer is configured, another is polled, with a malformed one beside it. -/
theorem agent_mirrors_tunnel_replaced :
    let current : GoMap Bytes32 Peer := (∅ : GoMap Bytes32 Peer).insert (keyOf 2) (peerWith "rs-b" "bb" "10.42.0.2")
    let table : Table := (∅ : Table).insert (keyOf 2) ⟨keyOf 2, none, none⟩
    let next := [peerWith "rs-a" "a" "10.42.0.1", peerWith "rs-c" "ccc" ""]
    let run := (reconcile letterFormats current next).respond willing
    Mirrors current table ∧ Mirrors run.2.1 (configured table run.1) ∧
      (∀ pub, pub ∈ run.2.1 ↔ Lists letterFormats next pub) ∧ run.2.1.keys = [keyOf 1] := by
  intro current table next run
  have mirrors : Mirrors current table := by
    intro pub
    rw [AList.mem_insert, AList.mem_insert]
    exact or_congr_right (iff_of_false (AList.notMem_empty pub) (AList.notMem_empty pub))
  have returns := returns_respond willing (reconcile letterFormats current next)
  obtain ⟨still, exact'⟩ := (agent_mirrors_tunnel letterFormats current table mirrors).1 next _ _ _ returns
  have requests : run.1 = [⟨.rangeOrder [keyOf 1], [keyOf 1]⟩, ⟨.addPeer ⟨keyOf 1, some ⟨.v4, 0x0a2a0001, by decide⟩, none⟩, none⟩,
      ⟨.rangeOrder [keyOf 2], [keyOf 2]⟩, ⟨.removePeer (keyOf 2), none⟩] := by rfl
  refine ⟨mirrors, still, exact' ?_ ?_, by rfl⟩
  · intro x member
    change x ∈ run.1 at member
    rw [requests] at member
    simp only [List.mem_cons, List.not_mem_nil, or_false] at member
    obtain rfl | rfl | rfl | rfl := member
    · exact .refl _
    · trivial
    · exact .refl _
    · trivial
  · intro x member
    change x ∈ run.1 at member
    rw [requests] at member
    simp only [List.mem_cons, List.not_mem_nil, or_false] at member
    obtain rfl | rfl | rfl | rfl := member <;> rfl

/-- Two entries with one key: the second one makes `BringUp` refuse the whole list. -/
theorem initialConfig_duplicate_rejected :
    let payload : Payload := ⟨"k", "10.42.0.9", [peerWith "rs-a" "a" "10.42.0.1", peerWith "rs-b" "a" "10.42.0.2"]⟩
    ∃ cfg current, initialConfig letterFormats payload = .ok (cfg, current, none) ∧
      checkConfig letterFormats cfg = some (.new "wireguard/tunnel: duplicate peer public key key") ∧
      current.keys = [keyOf 1] ∧ cfg.peers.map TunnelPeer.publicKey = [keyOf 1, keyOf 1] :=
  ⟨_, _, rfl, rfl, rfl, rfl⟩

/-- A malformed peer is skipped, and the other one configured. -/
theorem initialConfig_accepted_malformed :
    let payload : Payload := ⟨"k", "10.42.0.9", [peerWith "rs-a" "a" "", peerWith "rs-b" "bb" "10.42.0.2"]⟩
    ∃ cfg current skipped, initialConfig letterFormats payload = .ok (cfg, current, skipped) ∧ skipped ≠ none ∧
      (∀ pub, pub ∈ current ↔ pub ∈ cfg.peers.map TunnelPeer.publicKey) ∧
      checkConfig letterFormats cfg = none ∧ (cfg.peers.map TunnelPeer.publicKey).Nodup := by
  intro payload
  have accepted := @initialConfig_accepted letterFormats payload _ _ _ rfl
  exact ⟨_, _, _, rfl, Option.some_ne_none _, accepted.1, accepted.2.1.mpr (by decide), accepted.2.2.mpr (by decide)⟩

end Instances

end RunnerScout.Wireguard
