import RunnerScout.Capacity.Books
import RunnerScout.Operator.Encoding

/-! # Whose fleet it is

A stored fleet belongs to the configuration whose digest it carries, in the current
format or in the one before it, which hashed the admission limit as well.  Reading it
accepts exactly the configurations that differ from that one in what may change, and
whatever is saved afterwards carries the current format.
-/

namespace RunnerScout.Capacity

open Interaction Program Lifecycle Operator State

variable {catalog : Placement.Catalog} {n : Int} {a : Allocation}

/-! ## What is saved -/

/-- The format of a fleet that has been accepted under a configuration. -/
def Current (c : Config) (f : Fleet) : Prop := f.bindingVersion = 2 ∧ f.binding = some c.binding

/-- A fleet is only ever saved in the current format, under its owner. -/
def savesCurrent (c : Config) : ApiRequest → Prop
  | .updateMap cm => ∀ f, cm.data.lookup "fleet" = some (.fleet f) →
      (cm.labels.lookup ownerLabel).getD "" = c.name ∧ Current c f
  | _ => True

section Saves

variable {o : Operator} {c : Config} {cm : ConfigMap} {f : Fleet} {allocs : List Allocation}

abbrev SavesCurrent {α : Type} (c : Config) (program : Program Api α) : Prop := program.Only (savesCurrent c)

/-- A program that saves nothing else, and what it returns. -/
abbrev SavesThen {α : Type} (c : Config) (program : Program Api α) (post : α → Prop) : Prop :=
  program.Follows (.only (savesCurrent c)) () fun value _ => post value

/-! ### The store of allocations -/

theorem encode_fleet (s : Kubernetes) (a : Allocation) (revision : Revision) :
    (s.encode a revision).data.lookup "fleet" = none := by
  unfold Kubernetes.encode
  dsimp only
  split <;> rw [AList.lookup_insert_ne (by decide)] <;> rfl

theorem write_saves (s : Kubernetes) (a : Allocation) (revision : Revision) : SavesCurrent c (s.write a revision) := by
  unfold Kubernetes.write
  split
  · trivial
  dsimp only
  split
  · refine only_ask.mpr ⟨trivial, fun reply => ?_⟩
    split
    · split <;> trivial
    · trivial
  · refine only_ask.mpr ⟨fun f found => ?_, fun reply => ?_⟩
    · rw [encode_fleet] at found
      cases found
    split
    · split <;> trivial
    · trivial

theorem save_saves (s : Kubernetes) (a : Allocation) (revision : Revision) : SavesCurrent c (s.save a revision) := by
  unfold Kubernetes.save
  split
  · exact write_saves s a revision
  refine ⟨trivial, fun reply => ?_⟩
  cases reply with
  | error e => trivial
  | ok current =>
    show Program.Only _ (if _ then _ else _)
    split
    · trivial
    split
    · trivial
    split
    · trivial
    split
    · trivial
    · exact write_saves ..

theorem load_saves (s : Kubernetes) (id : String) : SavesCurrent c (s.load id) := by
  refine ⟨trivial, fun reply => ?_⟩
  cases reply with
  | error e => trivial
  | ok cm =>
    show Program.Only _ (if _ then _ else _)
    split
    · trivial
    split
    · trivial
    split <;> trivial

theorem list_saves (s : Kubernetes) : SavesCurrent c s.list :=
  ⟨trivial, fun reply => by cases reply <;> trivial⟩

theorem delete_saves (s : Kubernetes) (id : String) : SavesCurrent c (s.delete id) := by
  refine ⟨trivial, fun reply => ?_⟩
  cases reply with
  | error e =>
    show Program.Only _ (if _ then _ else _)
    split <;> trivial
  | ok cm =>
    show Program.Only _ (if _ then _ else _)
    split
    · trivial
    · refine ⟨trivial, fun reply => ?_⟩
      show Program.Only _ (if _ then _ else _)
      split <;> trivial

theorem stepCall_saves (interruptions : GoMap String Bool) (request : Request) :
    SavesCurrent c (o.stepCall interruptions request) := by
  cases request with
  | load id => exact load_saves ..
  | save a revision => exact save_saves ..
  | now | deregisterRunner | create | createWithResources | observe | reconcileCreation | delete =>
    exact ⟨trivial, fun _ => trivial⟩

/-! ### The fleet -/

theorem readFleet_saves (create : Bool) :
    SavesThen o.config (o.readFleet create) fun reply => ∀ cm f, reply = .ok (cm, f) →
      (cm.labels.lookup ownerLabel).getD "" = o.config.name ∧ Current o.config f := by
  have fetched : SavesCurrent o.config (o.fleetMap create) := by
    refine ⟨trivial, fun reply => ?_⟩
    cases reply with
    | ok cm => trivial
    | error e =>
      show Program.Only _ (if _ then _ else _)
      split
      · split
        · exact ⟨trivial, fun _ => trivial⟩
        · trivial
      · trivial
  refine .bind (fetched.follows.mono fun reply _ _ => ?_)
  cases reply with
  | error e => exact .done fun _ _ same => by cases same
  | ok cm =>
    dsimp only
    cases decoded : o.decodeFleet cm with
    | error e => exact .done fun _ _ same => by cases same
    | ok f =>
      refine .done fun _ _ same => ?_
      cases same
      unfold Operator.decodeFleet at decoded
      split at decoded
      · cases decoded
      rename_i owner
      refine ⟨not_not.mp owner, ?_⟩
      split at decoded
      · rw [bind_frame decoded]
        exact ⟨rfl, rfl⟩
      · cases decoded

theorem saveFleet_saves (owner : (cm.labels.lookup ownerLabel).getD "" = c.name) (current : Current c f) :
    SavesCurrent c (saveFleet cm f) := by
  refine ⟨fun g found => ?_, fun reply => by cases reply <;> trivial⟩
  simp only [withFleet, AList.lookup_insert, Option.some.injEq, Document.fleet.injEq] at found
  subst g
  exact ⟨owner, current⟩

/-! ### Admission -/

theorem Current.release {f : Fleet} (current : Current c f) : Current c (release allocs f) := by
  unfold Operator.release
  induction allocs generalizing f with
  | nil => exact current
  | cons a rest ih =>
    refine ih ?_
    unfold releaseTerminal
    split <;> exact current

theorem refreshOfferings_saves {query : Placement.Offering → Option PriceQuery} :
    ∀ offerings, SavesCurrent c (refreshOfferings query offerings)
  | [] => trivial
  | offering :: rest => by
    unfold refreshOfferings
    split
    · exact .bind (refreshOfferings_saves rest) fun _ => trivial
    · refine only_ask.mpr ⟨trivial, fun reply => ?_⟩
      split <;> exact .bind (refreshOfferings_saves rest) fun _ => trivial

theorem refreshPrices_saves {configured : Bool} {query : Placement.Offering → Option PriceQuery} :
    SavesCurrent c (refreshPrices configured query catalog) := by
  unfold refreshPrices
  split
  · trivial
  · exact .bind (refreshOfferings_saves _) fun _ => trivial

theorem stamp_saves :
    ∀ n addresses {f : Fleet}, Current c f → SavesThen c (o.stamp catalog n addresses f) (Current c)
  | 0, _, _, current => .done current
  | n + 1, addresses, _, current =>
    .request trivial fun _ _ => .request trivial fun _ _ => stamp_saves n addresses.tail current

theorem stampBatch_saves (current : Current c f) :
    SavesThen c (o.stampBatch catalog f allocs n) fun result => ∀ f, result = .ok f → Current c f := by
  unfold Operator.stampBatch
  generalize (if n > 0 ∧ o.config.networkProfile ≠ "" then o.overlayAddresses n.toNat (o.overlayTaken allocs f)
    else .ok []) = addresses
  cases addresses with
  | error e => exact .done fun _ same => by cases same
  | ok addresses =>
    have observed : Current c { f with condition := "DemandObserved" } := current
    refine .bind ((stamp_saves _ _ observed).mono fun g _ kept => ?_)
    refine .done fun _ same => ?_
    cases same
    exact kept

theorem batch_saves (current : Current c f) :
    SavesThen c (o.batch f allocs n) fun result => ∀ f, result = .ok f → Current c f := by
  unfold Operator.batch
  have catalog : SavesCurrent c o.catalog := by
    unfold Operator.catalog
    split
    · trivial
    · exact ⟨trivial, fun _ => trivial⟩
  refine .bind (catalog.follows.mono fun reply _ _ => ?_)
  cases reply with
  | error e =>
    dsimp only
    split
    · exact .done fun _ same => by cases same
    · exact stampBatch_saves current
  | ok catalog =>
    refine .bind (refreshPrices_saves.follows.mono fun _ _ _ => ?_)
    refine .bind (refreshPrices_saves.follows.mono fun _ _ _ => ?_)
    refine .bind (refreshPrices_saves.follows.mono fun _ _ _ => ?_)
    split
    · refine .request trivial fun now _ => ?_
      split
      · exact .done fun _ same => by cases same
      · exact stampBatch_saves current
    · exact stampBatch_saves current

theorem withinBudget_saves : SavesCurrent c (o.withinBudget f allocs n) := by
  unfold Operator.withinBudget
  split
  · exact ⟨trivial, fun _ => trivial⟩
  · trivial

theorem desire_saves {count : Int} (owner : (cm.labels.lookup ownerLabel).getD "" = c.name) (current : Current c f) :
    SavesThen c (o.desire count cm f allocs) fun _ => True := by
  unfold Operator.desire
  have saved {g : Fleet} (kept : Current c g) : SavesThen c (saveFleet cm g) fun _ => True :=
    (saveFleet_saves owner kept).follows
  dsimp only
  split
  · refine .bind ((saved ?_).mono fun _ _ _ => .done trivial)
    exact current
  split
  · exact .done trivial
  refine .bind (withinBudget_saves.follows.mono fun left _ _ => ?_)
  split
  · refine .bind ((saved ?_).mono fun _ _ _ => .done trivial)
    exact current
  split
  · exact .done trivial
  refine .bind ((batch_saves ?_).mono fun result _ kept => ?_)
  · exact current
  cases result with
  | error reason =>
    refine .bind ((saved ?_).mono fun _ _ _ => .done trivial)
    exact current
  | ok g =>
    refine .bind ((saved (kept g rfl)).mono fun reply _ _ => ?_)
    cases reply <;> exact .done trivial

theorem handleDesiredRunnerCount_saves (count : Int) :
    SavesThen o.config (o.handleDesiredRunnerCount count) fun _ => True := by
  refine .bind ((readFleet_saves true).mono fun reply _ read => ?_)
  cases reply with
  | error e => exact .done trivial
  | ok pair =>
    obtain ⟨cm, f⟩ := pair
    obtain ⟨owner, current⟩ := read cm f rfl
    refine .bind ((list_saves _).follows.mono fun reply _ _ => ?_)
    cases reply with
    | error e => exact .done trivial
    | ok allocs => exact desire_saves owner current.release

/-! ### Reruns -/

theorem saveProcessed_saves (a : Allocation) : SavesCurrent c (o.saveProcessed a) := by
  refine .bind (save_saves ..) fun reply => ?_
  cases reply with
  | ok a => trivial
  | error e => dsimp only; split <;> trivial

theorem requestRerun_saves {jobs : List Recovery.RESTJob} (current : Current c f) :
    SavesThen c (o.requestRerun a f jobs) (Current c) := by
  unfold Operator.requestRerun
  dsimp only
  split
  · exact .done current
  refine .request trivial fun _ _ => .request trivial fun reply _ => ?_
  split
  · exact .done current
  · split <;> exact .done current

theorem evaluateRetry_saves (current : Current c f) :
    SavesThen c (o.evaluateRetry a f) fun result => Current c result.1 := by
  refine .request trivial fun reply _ => ?_
  cases reply with
  | error e =>
    refine .bind (.done ?_)
    exact .bind ((saveProcessed_saves _).follows.mono fun _ _ _ => .done current)
  | ok jobs =>
    refine .bind ((requestRerun_saves current).mono fun g _ kept => ?_)
    exact .bind ((saveProcessed_saves _).follows.mono fun _ _ _ => .done kept)

theorem reconcilePendingRerun_saves {owner repo : String} {runID : Int} {pr : PendingRerun} :
    SavesCurrent c (reconcilePendingRerun owner repo runID pr) := by
  refine ⟨trivial, fun reply => ?_⟩
  cases reply with
  | ok jobs =>
    show Program.Only _ (if _ then _ else _)
    split <;> trivial
  | error e =>
    show Program.Only _ (if _ then _ else _)
    split
    · trivial
    refine ⟨trivial, fun reply => ?_⟩
    cases reply with
    | error e => trivial
    | ok jobs =>
      show Program.Only _ (if _ then _ else _)
      split
      · show Program.Only _ (if _ then _ else _)
        split <;> trivial
      · trivial

theorem processRetry_saves (current : Current c f) :
    SavesThen c (o.processRetry a f) fun result => Current c result.1 := by
  unfold Operator.processRetry
  split
  · exact evaluateRetry_saves current
  refine .bind (reconcilePendingRerun_saves.follows.mono fun resolved _ _ => ?_)
  refine .request trivial fun _ _ => ?_
  dsimp only
  split
  · exact .bind ((saveProcessed_saves _).follows.mono fun _ _ _ => .done current)
  · exact evaluateRetry_saves current
  · exact evaluateRetry_saves current

theorem processRetries_saves : ∀ (pending : List Allocation) {f : Fleet}, Current c f →
    SavesThen c (o.processRetries pending f) fun result => Current c result.1
  | [], _, current => .done current
  | a :: rest, _, current => by
    refine .bind ((processRetry_saves current).mono fun first _ kept => ?_)
    exact .bind ((processRetries_saves rest kept).mono fun _ _ also => .done also)

theorem processInterruptionRetries_saves : SavesThen o.config o.processInterruptionRetries fun _ => True := by
  unfold Operator.processInterruptionRetries
  split
  · exact .done trivial
  refine .request trivial fun _ _ => .bind ((list_saves _).follows.mono fun reply _ _ => ?_)
  cases reply with
  | error e => exact .done trivial
  | ok allocs =>
    dsimp only
    split
    · exact .done trivial
    refine .bind ((readFleet_saves true).mono fun reply _ read => ?_)
    cases reply with
    | error e => exact .done trivial
    | ok pair =>
      obtain ⟨cm, f⟩ := pair
      obtain ⟨owner, current⟩ := read cm f rfl
      refine .bind ((processRetries_saves _ current).mono fun result _ kept => ?_)
      refine .bind ((saveFleet_saves owner kept).follows.mono fun reply _ _ => ?_)
      cases reply <;> exact .done trivial

/-! ### `Tick` -/

theorem migrate_saves : ∀ (ids : List String) {f : Fleet}, Current c f →
    SavesThen c (o.migrate ids f) fun result => ∀ f, result = .ok f → Current c f
  | [], _, current => .done fun _ same => by cases same; exact current
  | id :: rest, f, current => by
    unfold Operator.migrate
    split
    · exact migrate_saves rest current
    refine .bind ((save_saves ..).follows.mono fun reply _ _ => ?_)
    cases reply with
    | ok a => exact migrate_saves rest current
    | error e =>
      dsimp only
      split
      · exact migrate_saves rest current
      · exact .done fun _ same => by cases same

theorem stepWorker_saves {controller : Controller} {interruptions : GoMap String Bool} {id : String} :
    SavesCurrent c (o.stepWorker controller interruptions id) := by
  refine .bind (.interpret (stepCall_saves interruptions)) fun err => .bind (load_saves ..) fun reply => ?_
  cases reply <;> trivial

theorem stepAll_saves {controller : Controller} {interruptions : GoMap String Bool} :
    ∀ allocs, SavesCurrent c (o.stepAll controller interruptions f allocs)
  | [] => trivial
  | a :: rest => by
    unfold Operator.stepAll
    split
    · exact .bind (stepAll_saves rest) fun _ => trivial
    refine .bind (.interpret fun request => ?_) fun reply => ?_
    · have call : SavesCurrent c (o.stepCall interruptions request) := stepCall_saves interruptions request
      cases request with
      | now => exact ⟨trivial, fun _ => ⟨trivial, fun _ => trivial⟩⟩
      | _ => exact call
    cases reply with
    | some e => exact .bind (stepAll_saves rest) fun _ => trivial
    | none => exact .bind (.both trivial stepWorker_saves (stepAll_saves rest)) fun _ => trivial

theorem markPruned_saves : ∀ (allocs : List Allocation) {f : Fleet}, Current c f →
    SavesThen c (markPruned allocs f) fun result => Current c result.1
  | [], _, current => .done current
  | a :: rest, f, current => by
    unfold markPruned
    split
    · exact markPruned_saves rest current
    refine .request trivial fun now _ => ?_
    split
    · exact markPruned_saves rest current
    split
    · exact markPruned_saves rest current
    refine .request trivial fun reply _ => ?_
    split
    · exact .bind ((markPruned_saves rest current).mono fun _ _ kept => .done kept)
    · have marked : Current c { f with pruned := f.pruned.insert a.id true } := current
      exact .bind ((markPruned_saves rest marked).mono fun _ _ kept => .done kept)

theorem deletePruned_saves : ∀ ids, SavesCurrent c (o.deletePruned ids)
  | [] => trivial
  | id :: rest => by
    refine .bind (delete_saves ..) fun reply => ?_
    cases reply with
    | none => exact deletePruned_saves rest
    | some e => exact .bind (deletePruned_saves rest) fun _ => trivial

theorem pruneTerminalAllocations_saves : SavesThen o.config (o.pruneTerminalAllocations allocs) fun _ => True := by
  unfold Operator.pruneTerminalAllocations
  split
  · exact .done trivial
  refine .bind ((readFleet_saves true).mono fun reply _ read => ?_)
  cases reply with
  | error e => exact .done trivial
  | ok pair =>
    obtain ⟨cm, f⟩ := pair
    obtain ⟨owner, current⟩ := read cm f rfl
    refine .bind ((markPruned_saves allocs current).mono fun result _ kept => ?_)
    obtain ⟨g, ids, failures⟩ := result
    have finish : SavesThen o.config (do return joinErrors (failures ++ (← o.deletePruned ids))) fun _ => True :=
      .bind ((deletePruned_saves ids).follows.mono fun _ _ _ => .done trivial)
    dsimp only
    split
    · refine .bind ((saveFleet_saves owner kept).follows.mono fun saved _ _ => ?_)
      cases saved with
      | some e => exact .done trivial
      | none => exact finish
    · exact finish

theorem tickRecorded_saves : SavesThen o.config (o.tickRecorded f) fun _ => True := by
  unfold Operator.tickRecorded
  refine .bind ((list_saves _).follows.mono fun reply _ _ => ?_)
  cases reply with
  | error e => exact .done trivial
  | ok allocs =>
    have poll : SavesCurrent o.config o.pollAzureInterruptions := by
      unfold Operator.pollAzureInterruptions
      split
      · trivial
      · exact ⟨trivial, fun reply => by cases reply <;> trivial⟩
    refine .bind (poll.follows.mono fun _ _ _ => ?_)
    refine .bind ((stepAll_saves allocs).follows.mono fun _ _ _ => ?_)
    refine .bind (processInterruptionRetries_saves.mono fun _ _ _ => ?_)
    exact .bind (pruneTerminalAllocations_saves.mono fun _ _ _ => .done trivial)

theorem tick_saves : SavesThen o.config o.tick fun _ => True := by
  refine .bind ((readFleet_saves true).mono fun reply _ read => ?_)
  cases reply with
  | error e => exact .done trivial
  | ok pair =>
    obtain ⟨cm, f⟩ := pair
    obtain ⟨owner, current⟩ := read cm f rfl
    refine .request trivial fun order _ => .bind ((migrate_saves order current).mono fun result _ kept => ?_)
    cases result with
    | error e => exact .done trivial
    | ok g =>
      refine .bind ((saveFleet_saves owner (kept g rfl)).follows.mono fun reply _ _ => ?_)
      cases reply with
      | some e => exact .done trivial
      | none => exact tickRecorded_saves

theorem drained_saves : SavesThen o.config o.drained fun _ => True := by
  refine .bind ((readFleet_saves false).mono fun reply _ _ => ?_)
  cases reply with
  | error e => exact .done trivial
  | ok pair =>
    dsimp only
    split
    · exact .done trivial
    refine .bind ((list_saves _).follows.mono fun reply _ _ => ?_)
    cases reply <;> exact .done trivial

/-- Whatever it is told, a call saves a fleet in the current format only. -/
theorem call_saves (call : Call) : SavesThen call.operator.config call.program fun _ => True := by
  cases call with
  | desiredRunnerCount o count => exact .bind ((handleDesiredRunnerCount_saves count).mono fun _ _ _ => .done trivial)
  | tick o => exact .bind (tick_saves.mono fun _ _ _ => .done trivial)
  | drained o => exact .bind (drained_saves.mono fun _ _ _ => .done trivial)
  | jobStarted o j | jobCompleted o j =>
    exact .bind ((Program.Only.interpret (stepCall_saves ∅)).follows.mono fun _ _ _ => .done trivial)

end Saves

/-! ## What is accepted -/

section Ownership

open Json

variable {δ : Type} [DecidableEq δ] (catalogDocument : Placement.Catalog → Json) (hash : Hash δ)

/-- A fleet stored under a configuration: in the current format, or in the one before
    it, whose digest includes the limit. -/
structure StoredUnder (c : Config) (cm : ConfigMap) (f : Fleet) (stored : δ) : Prop where
  owner : (cm.labels.lookup ownerLabel).getD "" = c.name
  content : cm.data.lookup "fleet" = some (.fleet f)
  digested : Digested catalogDocument hash f.binding stored
  format : f.bindingVersion = 2 ∧ stored = c.digestWithLimit catalogDocument hash 0 ∨
    f.bindingVersion = 0 ∧ ∃ limit : Int, 1 ≤ limit ∧ limit ≤ 10 ∧ stored = c.digestWithLimit catalogDocument hash limit

/-- `readFleet` accepts the ConfigMap it finds. -/
def Accepts (o : Operator) (create : Bool) (cm : ConfigMap) : Prop :=
  ∃ f, (o.readFleet create).Returns [⟨.getMap (fleetName o.config.name), .ok cm⟩] (.ok (cm, f))

variable {catalogDocument hash} {o : Operator} {create : Bool} {cm : ConfigMap} {f : Fleet} {stored : δ} {c : Config}

theorem accepts_iff_decodes : Accepts o create cm ↔ ∃ f, o.decodeFleet cm = .ok f := by
  unfold Accepts
  -- the reply is the only one there is, so the rest of the run is what is decoded from it
  constructor
  · rintro ⟨f, run⟩
    obtain ⟨reply, later, exchanges, rest⟩ := returns_call.mp run
    cases exchanges
    refine ⟨f, ?_⟩
    cases decoded : o.decodeFleet cm with
    | error e =>
      simp only [Program.bind, pure, decoded] at rest
      cases (returns_done.mp rest).2
    | ok g =>
      simp only [Program.bind, pure, decoded] at rest
      cases (returns_done.mp rest).2
      rfl
  · rintro ⟨f, decoded⟩
    refine ⟨f, returns_call.mpr ⟨_, _, rfl, ?_⟩⟩
    simp only [Program.bind, pure, decoded]
    exact returns_done.mpr ⟨rfl, rfl⟩

/-- What `readFleet` checks of a fleet. -/
theorem accepts_iff (content : cm.data.lookup "fleet" = some (.fleet f))
    (digested : Digested catalogDocument hash f.binding stored) :
    Accepts o create cm ↔ (cm.labels.lookup ownerLabel).getD "" = o.config.name ∧
      o.config.checkBinding catalogDocument hash f.bindingVersion stored = none := by
  rw [accepts_iff_decodes]
  unfold Operator.decodeFleet
  simp only [content, bind_eq_checkBinding digested]
  split
  · rename_i other
    exact iff_of_false (fun ⟨_, decoded⟩ => by cases decoded) fun passed => other passed.1
  · rename_i owned
    cases o.config.checkBinding catalogDocument hash f.bindingVersion stored with
    | some e => exact iff_of_false (fun ⟨_, decoded⟩ => by cases decoded) fun passed => by cases passed.2
    | none => exact iff_of_true ⟨_, rfl⟩ ⟨not_not.mp owned, rfl⟩

/-- A stored fleet passes the checks of the configurations with the same binding only. -/
theorem StoredUnder.checkBinding (under : StoredUnder catalogDocument hash c cm f stored) {d : Config} :
    d.checkBinding catalogDocument hash f.bindingVersion stored = none ↔ c.binding = d.binding := by
  have bound {limit : Int} (same : stored = c.digestWithLimit catalogDocument hash limit) (other : Int) :
      stored = d.digestWithLimit catalogDocument hash other ↔ limit = other ∧ c.binding = d.binding := by
    rw [same, digestWithLimit_inj, bindingWithLimit_inj]
  have present {limit : Int} (same : stored = c.digestWithLimit catalogDocument hash limit) : stored ≠ hash.empty :=
    same ▸ hash.digest_ne_empty _
  rw [checkBinding_eq_none]
  obtain ⟨version, same⟩ | ⟨version, limit, low, high, same⟩ := under.format
  · simp [version, present same, bound same 0]
  · have zero : limit ≠ 0 := by omega
    simp only [version, present same, bound same, zero]
    constructor
    · rintro ⟨_, missing | ⟨impossible, _⟩ | ⟨_, _, _, _, _, kept⟩⟩
      exacts [missing.elim, impossible.elim, kept]
    · exact fun kept => ⟨.inl trivial, .inr (.inr ⟨trivial, limit, low, high, rfl, kept⟩)⟩

/-- A fleet is accepted under another configuration exactly when the two documents agree
    on everything that may not change; whatever any call saves is in the current format,
    under the configuration of its process; and in that format a digest with a limit in
    it is refused, even by the configuration it was taken of. -/
theorem fleet_never_rebound (catalogDocument : Placement.Catalog → Json) (hash : Hash δ) :
    (∀ c cm f stored, StoredUnder catalogDocument hash c cm f stored → ∀ o create, Accepts o create cm ↔
        AgreeExcept exempt (c.document catalogDocument) (o.config.document catalogDocument)) ∧
      (∀ (call : Call) trace cm f, call.program.Reaches trace (.updateMap cm) →
        cm.data.lookup "fleet" = some (.fleet f) → f.bindingVersion = 2 ∧
          StoredUnder catalogDocument hash call.operator.config cm f
            (call.operator.config.digestWithLimit catalogDocument hash 0)) ∧
      ∀ cm f stored, cm.data.lookup "fleet" = some (.fleet f) → f.bindingVersion = 2 →
        Digested catalogDocument hash f.binding stored → ∀ o create limit, 1 ≤ limit →
          stored = o.config.digestWithLimit catalogDocument hash limit → ¬ Accepts o create cm := by
  refine ⟨fun c cm f stored under o create => ?_, fun call trace cm f reached content => ?_, ?_⟩
  · rw [accepts_iff under.content under.digested, under.checkBinding, agreeExcept_iff_binding, under.owner]
    exact ⟨fun passed => passed.2, fun same => ⟨congrArg Binding.name same, same⟩⟩
  · have saved := (call_saves call).reaches reached fun _ _ => trivial
    obtain ⟨owner, version, binding⟩ := saved f content
    refine ⟨version, owner, content, ?_, .inl ⟨version, rfl⟩⟩
    rw [binding]
    exact .bound _ 0
  · intro cm f stored content version digested o create limit positive same accepted
    obtain ⟨_, passed⟩ := (accepts_iff content digested).mp accepted
    obtain ⟨_, missing | current | ⟨legacy, _⟩⟩ := checkBinding_eq_none.mp passed
    · exact hash.digest_ne_empty _ (same ▸ missing)
    · rw [same, digestWithLimit_inj, bindingWithLimit_inj] at current
      omega
    · omega

/-- The ConfigMap of a fleet in the format that hashed the limit. -/
def legacyMap (c : Config) (limit : Int) : ConfigMap where
  name := fleetName c.name
  labels := (∅ : GoMap String String).insert ownerLabel c.name
  data := (∅ : GoMap String Document).insert "fleet" (.fleet { binding := some (c.bindingWithLimit limit) })

theorem fleet_never_rebound_legacy :
    Accepts { config := { name := "gpu", maxRunners := 7 } } true (legacyMap { name := "gpu" } 3) ∧
      ¬ Accepts { config := { name := "gpu", space := "other" } } true (legacyMap { name := "gpu" } 3) := by
  classical
  let documents : Placement.Catalog → Json := fun _ => .null
  let hash : Hash (Option Json) := ⟨some, none, Option.some_injective _, Option.some_ne_none⟩
  have under : StoredUnder documents hash { name := "gpu" } (legacyMap { name := "gpu" } 3) _ _ :=
    ⟨rfl, AList.lookup_insert _, .bound _ _, .inr ⟨rfl, 3, by decide, by decide, rfl⟩⟩
  have accepted := (fleet_never_rebound documents hash).1 _ _ _ _ under
  simp only [accepted, agreeExcept_iff_binding]
  exact ⟨rfl, by decide⟩

end Ownership

end RunnerScout.Capacity
