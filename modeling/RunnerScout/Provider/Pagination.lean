import RunnerScout.Provider.AwsEvidence

/-! # The listing loops of EC2

A listing is asked for page after page, with the token of the page before.  The tokens
that were followed are kept, and one of them named again, or a hundred of them, end the
loop with an error.  So a loop ends whatever tokens EC2 names, and one that succeeds has
read every page up to the last, each once.
-/

namespace RunnerScout.Provider

open Interaction Program Lifecycle

variable {seen : List String} {token : String} {trace : List (Exchange CloudCalls)} {next : Option String} {α : Type}

def paginationInvalid : GoError := .new "AWS inventory pagination invalid or excessive"

/-! ## The loop -/

section Loop

variable {σ : Type} {page : σ → String → Program CloudCalls (Except GoError (σ × Option String))}

/-- What comes after a page matters only while there is room for its token. -/
theorem awsPage_congr {more more' : List String → σ → String → Program CloudCalls (Except GoError σ)} {s : σ}
    (same : seen.length < 100 → ∀ next s, more (next :: seen) s next = more' (next :: seen) s next) :
    awsPage page more seen s token = awsPage page more' seen s token := by
  unfold awsPage
  congr 1
  funext result
  match result with
  | .error e => rfl
  | .ok (s, none) => rfl
  | .ok (s, some next) =>
    dsimp only
    cases decided : awsNext next seen with
    | error e => rfl
    | ok followed =>
      cases followed with
      | none => rfl
      | some tokens =>
        unfold awsNext at decided
        split at decided
        · cases decided
        split at decided
        · cases decided
        rename_i room
        cases decided
        exact same (by simp only [not_or, ge_iff_le, not_le] at room; exact room.2) next s

/-- The loop of the source: no count of pages ends it, only its tokens do. -/
theorem awsPages_unbounded (seen : List String) (s : σ) (token : String) :
    awsPages page (100 - seen.length) seen s token =
      awsPage page (fun seen => awsPages page (100 - seen.length) seen) seen s token := by
  cases left : 100 - seen.length with
  | zero => exact awsPage_congr fun room => by omega
  | succ remaining =>
    refine awsPage_congr fun _ next s => ?_
    have fewer : 100 - (next :: seen).length = remaining := by
      rw [List.length_cons]
      omega
    rw [fewer]

/-- Pages that are one request each, `read` from the reply, which names the next page. -/
structure OnePage (page : σ → String → Program CloudCalls (Except GoError (σ × Option String))) {ρ : Type}
    (ask : String → ρ → Exchange CloudCalls) (named : ρ → String)
    (read : σ → ρ → Except GoError (σ × Option String)) : Prop where
  returns : ∀ {s token trace result}, (page s token).Returns trace result →
    ∃ reply, trace = [ask token reply] ∧ result = read s reply
  reaches : ∀ {s token trace request}, (page s token).Reaches trace request → trace = []
  next : ∀ {s reply s' next}, read s reply = .ok (s', next) → next.getD "" = named reply

variable {ρ : Type} {ask : String → ρ → Exchange CloudCalls} {named : ρ → String}
  {read : σ → ρ → Except GoError (σ × Option String)}

theorem awsPage_reaches (one : OnePage page ask named read)
    {more : List String → σ → String → Program CloudCalls (Except GoError σ)} {bound : Nat}
    (later : ∀ {seen s token trace request}, (more seen s token).Reaches trace request → trace.length < bound) {s : σ}
    {request : CloudRequest} (run : (awsPage page more seen s token).Reaches trace request) :
    trace.length < bound + 1 := by
  unfold awsPage at run
  obtain inside | ⟨first, second, result, rfl, returns, goesOn⟩ := reaches_bind run
  · rw [one.reaches inside]
    exact Nat.succ_pos bound
  obtain ⟨reply, rfl, _⟩ := one.returns returns
  match result, goesOn with
  | .error e, goesOn => exact absurd goesOn not_reaches_done
  | .ok (s, none), goesOn => exact absurd goesOn not_reaches_done
  | .ok (s, some next), goesOn =>
    dsimp only at goesOn
    split at goesOn
    · exact absurd goesOn not_reaches_done
    · exact absurd goesOn not_reaches_done
    · have shorter := later goesOn
      rw [List.length_append, List.length_singleton]
      omega

/-- A page is asked for after as many pages as tokens can have been followed. -/
theorem awsPages_reaches (one : OnePage page ask named read) : ∀ {remaining : Nat} {seen : List String} {s : σ}
    {token : String} {trace : List (Exchange CloudCalls)} {request : CloudRequest},
    (awsPages page remaining seen s token).Reaches trace request → trace.length < remaining + 1
  | 0, _, _, _, _, _, run => awsPage_reaches one (fun ended => absurd ended not_reaches_done) run
  | _ + 1, _, _, _, _, _, run => awsPage_reaches one (awsPages_reaches one) run

/-! ## What a loop reads -/

/-- The requests for pages that follow each other, with their replies. -/
def chain (ask : String → ρ → Exchange CloudCalls) (named : ρ → String) : String → List ρ → List (Exchange CloudCalls)
  | _, [] => []
  | token, reply :: rest => ask token reply :: chain ask named (named reply) rest

/-- The replies read one after the other. -/
def readAll (read : σ → ρ → Except GoError (σ × Option String)) : List ρ → σ → Except GoError σ
  | [], s => .ok s
  | reply :: rest, s =>
    match read s reply with
    | .error e => .error e
    | .ok (s, _) => readAll read rest s

/-- A loop that has followed the tokens `seen` cannot follow this one. -/
def Refused (seen : List String) (token : String) : Prop := token ≠ "" ∧ (token ∈ seen ∨ 100 ≤ seen.length)

/-- The replies of a loop, of which only the last can end it. -/
structure Pages (ask : String → ρ → Exchange CloudCalls) (named : ρ → String)
    (read : σ → ρ → Except GoError (σ × Option String)) (seen : List String) (s : σ) (token : String)
    (trace : List (Exchange CloudCalls)) (result : Except GoError σ) (earlier : List ρ) (last : ρ) : Prop where
  inOrder : trace = chain ask named token (earlier ++ [last])
  followed : ∀ token ∈ earlier.map named, token ≠ "" ∧ token ∉ seen
  distinct : (earlier.map named).Nodup
  room : earlier ≠ [] → seen.length + earlier.length ≤ 100
  refused : Refused ((earlier.map named).reverse ++ seen) (named last) → ∃ e, result = .error e
  processed : ¬ Refused ((earlier.map named).reverse ++ seen) (named last) → result = readAll read (earlier ++ [last]) s
  complete : ∀ s', result = .ok s' → named last = ""

theorem awsNext_refused (refused : Refused seen token) :
    awsNext token seen = .error paginationInvalid := by
  unfold awsNext
  rw [if_neg refused.1, if_pos (by simpa using refused.2)]
  rfl

theorem awsNext_followed (named : token ≠ "") (room : ¬ Refused seen token) :
    awsNext token seen = .ok (some (token :: seen)) := by
  unfold awsNext
  rw [if_neg named, if_neg]
  simpa [Refused, named] using room

/-- A loop that ends with its first page. -/
theorem Pages.single {s : σ} {result : Except GoError σ} {reply : ρ}
    (refused : Refused seen (named reply) → ∃ e, result = .error e)
    (processed : ¬ Refused seen (named reply) → result = readAll read [reply] s)
    (complete : ∀ s', result = .ok s' → named reply = "") :
    Pages ask named read seen s token [ask token reply] result [] reply where
  inOrder := rfl
  followed := by simp
  distinct := List.nodup_nil
  room := by simp
  refused := by simpa using refused
  processed := by simpa using processed
  complete := complete

/-- A loop that follows the token of its first page. -/
theorem Pages.cons {s s' : σ} {later : List (Exchange CloudCalls)} {result : Except GoError σ} {reply last : ρ}
    {earlier : List ρ} (first : read s reply = .ok (s', next)) (more : named reply ≠ "")
    (room : ¬ Refused seen (named reply))
    (pages : Pages ask named read (named reply :: seen) s' (named reply) later result earlier last) :
    Pages ask named read seen s token (ask token reply :: later) result (reply :: earlier) last := by
  have tokens : ((reply :: earlier).map named).reverse ++ seen = (earlier.map named).reverse ++ named reply :: seen := by
    simp
  simp only [Refused, more, ne_eq, not_false_eq_true, true_and, not_or, not_le] at room
  refine ⟨?_, ?_, ?_, fun _ => ?_, ?_, ?_, pages.complete⟩
  · rw [pages.inOrder]
    rfl
  · rw [List.map_cons, List.forall_mem_cons]
    refine ⟨⟨more, room.1⟩, fun token member => ?_⟩
    obtain ⟨nonempty, fresh⟩ := pages.followed token member
    exact ⟨nonempty, fun old => fresh (List.mem_cons_of_mem _ old)⟩
  · rw [List.map_cons, List.nodup_cons]
    exact ⟨fun again => (pages.followed _ again).2 List.mem_cons_self, pages.distinct⟩
  · have later := pages.room
    rw [List.length_cons] at later ⊢
    cases earlier with
    | nil => simpa using room.2
    | cons reply rest =>
      have bound := later (List.cons_ne_nil _ _)
      omega
  · rw [tokens]
    exact pages.refused
  · intro room
    rw [tokens] at room
    rw [pages.processed room, List.cons_append, readAll, first]

theorem awsPage_pages (one : OnePage page ask named read)
    {more : List String → σ → String → Program CloudCalls (Except GoError σ)} {s : σ} {result : Except GoError σ}
    (later : seen.length < 100 → ∀ {next s trace}, (more (next :: seen) s next).Returns trace result →
      ∃ earlier last, Pages ask named read (next :: seen) s next trace result earlier last)
    (run : (awsPage page more seen s token).Returns trace result) :
    ∃ earlier last, Pages ask named read seen s token trace result earlier last := by
  unfold awsPage at run
  obtain ⟨first, second, value, rfl, returns, goesOn⟩ := returns_bind.mp run
  obtain ⟨reply, rfl, same⟩ := one.returns returns
  match value, same, goesOn with
  | .error e, same, goesOn =>
    obtain ⟨rfl, rfl⟩ := returns_pure.mp goesOn
    refine ⟨[], reply, .single (fun _ => ⟨e, rfl⟩) (fun _ => ?_) nofun⟩
    rw [readAll, ← same]
  | .ok (s', none), same, goesOn =>
    obtain ⟨rfl, rfl⟩ := returns_pure.mp goesOn
    have ended : "" = named reply := one.next same.symm
    refine ⟨[], reply, .single (fun refused => absurd ended.symm refused.1) (fun _ => ?_) fun _ _ => ended.symm⟩
    rw [readAll, ← same]
    rfl
  | .ok (s', some next), same, goesOn =>
    obtain rfl : next = named reply := one.next same.symm
    dsimp only at goesOn
    by_cases ended : named reply = ""
    · rw [awsNext, if_pos ended] at goesOn
      obtain ⟨rfl, rfl⟩ := returns_pure.mp goesOn
      refine ⟨[], reply, .single (fun refused => absurd ended refused.1) (fun _ => ?_) fun _ _ => ended⟩
      rw [readAll, ← same]
      rfl
    by_cases refused : Refused seen (named reply)
    · rw [awsNext_refused refused] at goesOn
      obtain ⟨rfl, rfl⟩ := returns_pure.mp goesOn
      exact ⟨[], reply, .single (fun _ => ⟨_, rfl⟩) (fun room => absurd refused room) nofun⟩
    · rw [awsNext_followed ended refused] at goesOn
      have room : seen.length < 100 := by
        simp only [Refused, ended, ne_eq, not_false_eq_true, true_and, not_or, not_le] at refused
        exact refused.2
      obtain ⟨earlier, last, pages⟩ := later room goesOn
      exact ⟨reply :: earlier, last, .cons same.symm ended refused pages⟩

/-- The replies of a loop with enough turns left, which no loop needs more of. -/
theorem awsPages_pages (one : OnePage page ask named read) : ∀ {remaining : Nat} {seen : List String} {s : σ}
    {token : String} {trace : List (Exchange CloudCalls)} {result : Except GoError σ}, 100 ≤ seen.length + remaining →
    (awsPages page remaining seen s token).Returns trace result →
      ∃ earlier last, Pages ask named read seen s token trace result earlier last
  | 0, _, _, _, _, _, enough, run => awsPage_pages one (fun room => by omega) run
  | remaining + 1, seen, _, _, _, _, enough, run => by
    refine awsPage_pages one (fun _ next s trace => awsPages_pages one ?_) run
    rw [List.length_cons]
    omega

end Loop

/-! ## The three listings -/

section Listings

variable (p : Command) (a : Allocation)

/-- The token a reply names; a reply without a page names none. -/
def replyToken {α : Type} : AwsReply α → String
  | .ok (some page) => page.nextToken
  | _ => ""

/-- What `instancePage` makes of a reply. -/
def readInstanceReply (s : AwsInventory) :
    AwsReply AwsReservation → Except GoError (AwsInventory × Option String)
  | .error e =>
    if a.resourceID ≠ "" ∧ awsMissing e "InvalidInstanceID.NotFound" then .ok (s, none)
    else .error (.new "AWS instance inventory unavailable")
  | .ok none => .error (.new "AWS instance inventory unavailable")
  | .ok (some page) =>
    if !page.known then .error (.new "AWS instance inventory unavailable")
    else if a.resourceID ≠ "" ∧ page.items.length = 0 then
      .error (.new "AWS instance response omitted requested identity")
    else
      match readReservations p a page.items s with
      | .error e => .error e
      | .ok s => .ok (s, some page.nextToken)

/-- What `volumePage` and `interfacePage` make of a reply. -/
def readReply {α : Type} (unavailable : GoError) (items : List α → AwsInventory → Except GoError AwsInventory)
    (s : AwsInventory) : AwsReply α → Except GoError (AwsInventory × Option String)
  | .ok (some page) =>
    if !page.known then .error unavailable
    else
      match items page.items s with
      | .error e => .error e
      | .ok s => .ok (s, some page.nextToken)
  | _ => .error unavailable

def readVolumeReply : AwsInventory → AwsReply AwsVolume → Except GoError (AwsInventory × Option String) :=
  readReply (.new "AWS volume inventory unavailable") (readVolumes p a)

def readInterfaceReply : AwsInventory → AwsReply AwsInterface → Except GoError (AwsInventory × Option String) :=
  readReply (.new "AWS network interface inventory unavailable") (readInterfaces p a)

def askInstances (token : String) (reply : AwsReply AwsReservation) : Exchange CloudCalls :=
  ⟨.describeInstances (instanceSelector a) token, reply⟩

def askVolumes (token : String) (reply : AwsReply AwsVolume) : Exchange CloudCalls :=
  ⟨.describeVolumes (.owned p.config.owner a.id) token, reply⟩

def askInterfaces (token : String) (reply : AwsReply AwsInterface) : Exchange CloudCalls :=
  ⟨.describeNetworkInterfaces (.owned p.config.owner a.id) token, reply⟩

variable {p a}

theorem instancePage_eq (s : AwsInventory) (token : String) :
    instancePage p a s token = Program.call (S := CloudCalls) (.describeInstances (instanceSelector a) token)
      fun reply => .done (readInstanceReply p a s reply) := by
  refine congrArg (Program.call _) (funext fun reply => ?_)
  match reply with
  | .error e =>
    dsimp only [Program.bind, readInstanceReply]
    split <;> rfl
  | .ok none => rfl
  | .ok (some page) =>
    dsimp only [Program.bind, readInstanceReply]
    cases readReservations p a page.items s <;> split_ifs <;> rfl

theorem volumePage_eq (s : AwsInventory) (token : String) :
    volumePage p a s token = Program.call (S := CloudCalls) (.describeVolumes (.owned p.config.owner a.id) token)
      fun reply => .done (readVolumeReply p a s reply) := by
  refine congrArg (Program.call _) (funext fun reply => ?_)
  match reply with
  | .error e => rfl
  | .ok none => rfl
  | .ok (some page) =>
    dsimp only [Program.bind, readVolumeReply, readReply]
    cases readVolumes p a page.items s <;> split_ifs <;> rfl

theorem interfacePage_eq (s : AwsInventory) (token : String) :
    interfacePage p a s token =
      Program.call (S := CloudCalls) (.describeNetworkInterfaces (.owned p.config.owner a.id) token)
        fun reply => .done (readInterfaceReply p a s reply) := by
  refine congrArg (Program.call _) (funext fun reply => ?_)
  match reply with
  | .error e => rfl
  | .ok none => rfl
  | .ok (some page) =>
    dsimp only [Program.bind, readInterfaceReply, readReply]
    cases readInterfaces p a page.items s <;> split_ifs <;> rfl

theorem readReply_next {unavailable : GoError} {items : List α → AwsInventory → Except GoError AwsInventory}
    {s s' : AwsInventory} {reply : AwsReply α} (read : readReply unavailable items s reply = .ok (s', next)) :
    next.getD "" = replyToken reply := by
  match reply with
  | .error e => cases read
  | .ok none => cases read
  | .ok (some page) =>
    dsimp only [readReply] at read
    split at read
    · cases read
    split at read
    · cases read
    · cases read
      rfl

theorem readInstanceReply_next {s s' : AwsInventory} {reply : AwsReply AwsReservation}
    (read : readInstanceReply p a s reply = .ok (s', next)) : next.getD "" = replyToken reply := by
  match reply with
  | .error e =>
    dsimp only [readInstanceReply] at read
    split at read
    · cases read
      rfl
    · cases read
  | .ok none => cases read
  | .ok (some page) =>
    dsimp only [readInstanceReply] at read
    split at read
    · cases read
    split at read
    · cases read
    split at read
    · cases read
    · cases read
      rfl

theorem reaches_single {asked request : CloudRequest} {f : CloudReply asked → α}
    (run : (Program.call (S := CloudCalls) asked fun reply => .done (f reply)).Reaches trace request) : trace = [] := by
  obtain ⟨rfl, _⟩ | ⟨_, _, _, impossible⟩ := reaches_call run
  · rfl
  · exact absurd impossible not_reaches_done

theorem returns_single {asked : CloudRequest} {f : CloudReply asked → α} {result : α}
    (run : (Program.call (S := CloudCalls) asked fun reply => .done (f reply)).Returns trace result) :
    ∃ reply, trace = [⟨asked, reply⟩] ∧ result = f reply := by
  obtain ⟨reply, later, rfl, ends⟩ := returns_call.mp run
  obtain ⟨rfl, rfl⟩ := returns_done.mp ends
  exact ⟨reply, rfl, rfl⟩

theorem instancePage_one : OnePage (instancePage p a) (askInstances a) replyToken (readInstanceReply p a) where
  returns run := by
    rw [instancePage_eq] at run
    exact returns_single run
  reaches run := by
    rw [instancePage_eq] at run
    exact reaches_single run
  next := readInstanceReply_next

theorem volumePage_one : OnePage (volumePage p a) (askVolumes p a) replyToken (readVolumeReply p a) where
  returns run := by
    rw [volumePage_eq] at run
    exact returns_single run
  reaches run := by
    rw [volumePage_eq] at run
    exact reaches_single run
  next := readReply_next

theorem interfacePage_one : OnePage (interfacePage p a) (askInterfaces p a) replyToken (readInterfaceReply p a) where
  returns run := by
    rw [interfacePage_eq] at run
    exact returns_single run
  reaches run := by
    rw [interfacePage_eq] at run
    exact reaches_single run
  next := readReply_next

/-- A listing loop: it needs no count of its pages, asks for at most 101 of them, and
    reads them as `Pages` says. -/
structure Ends {ρ : Type} (page : AwsInventory → String → Program CloudCalls (Except GoError (AwsInventory × Option String)))
    (ask : String → ρ → Exchange CloudCalls) (named : ρ → String)
    (read : AwsInventory → ρ → Except GoError (AwsInventory × Option String)) : Prop where
  unbounded : ∀ seen s token, awsPages page (100 - seen.length) seen s token =
    awsPage page (fun seen => awsPages page (100 - seen.length) seen) seen s token
  limited : ∀ s trace request, (awsPages page 100 [] s "").Reaches trace request → trace.length < 101
  pages : ∀ s trace result, (awsPages page 100 [] s "").Returns trace result →
    ∃ earlier last, Pages ask named read [] s "" trace result earlier last

theorem OnePage.ends {ρ : Type}
    {page : AwsInventory → String → Program CloudCalls (Except GoError (AwsInventory × Option String))}
    {ask : String → ρ → Exchange CloudCalls} {named : ρ → String}
    {read : AwsInventory → ρ → Except GoError (AwsInventory × Option String)} (one : OnePage page ask named read) :
    Ends page ask named read where
  unbounded := awsPages_unbounded
  limited := fun _ _ _ => awsPages_reaches one
  pages := fun _ _ _ => awsPages_pages one (Nat.le_refl 100)

end Listings

/-- Each listing loop of `awsInventory` ends after at most 101 pages.  It fails if a token
    is named twice or a hundred have been followed, and otherwise has read every page that
    was named, in order, each once. -/
theorem awsInventory_listings_end (p : Command) (a : Allocation) :
    Ends (instancePage p a) (askInstances a) replyToken (readInstanceReply p a) ∧
      Ends (volumePage p a) (askVolumes p a) replyToken (readVolumeReply p a) ∧
      Ends (interfacePage p a) (askInterfaces p a) replyToken (readInterfaceReply p a) :=
  ⟨instancePage_one.ends, volumePage_one.ends, interfacePage_one.ends⟩

end RunnerScout.Provider
