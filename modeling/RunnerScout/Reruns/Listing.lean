import RunnerScout.Operator.Githubjobs
import RunnerScout.State.Replay

/-! # The jobs of an attempt

`AttemptJobs` reads the pages of an attempt until one of them is empty or as many jobs were
read as the page reports.  What it returns is the concatenation of the pages; whether that
is all of the attempt depends on the answers hanging together.
-/

namespace RunnerScout.Githubjobs

open Interaction Program Operator Recovery State Client

variable {answer : HttpReply} {page : JobsPage} {x : Exchange Wire} {later earlier : List (Exchange Wire)}
  {size : Nat}

/-! ## The pages of a call -/

/-- The pages of a call that were answered 200 and decode. -/
def pagesOf (inner : List (Exchange Wire)) : List JobsPage := inner.filterMap fun x => (answerOf x).bind HttpReply.page

/-- The jobs of those pages, in the order of the answers. -/
def listed (inner : List (Exchange Wire)) : List RESTJob := (pagesOf inner).flatMap JobsPage.jobs

/-- The page was answered 200. -/
def found (x : Exchange Wire) : Prop := ∃ body, answerOf x = some (.answered 200 body)

/-- The answers of one listing hang together: a page is empty only once as many jobs were
    listed as it reports, and an attempt with a page that was found stays there. -/
structure Steady (inner : List (Exchange Wire)) : Prop where
  full : ∀ earlier x later page, inner = earlier ++ x :: later → (answerOf x).bind HttpReply.page = some page →
    page.jobs = [] → page.totalCount ≤ ((listed earlier).length : Int)
  kept : ∀ earlier x later body, inner = earlier ++ x :: later → answerOf x = some (.answered 404 body) →
    ∀ y ∈ earlier, ¬found y

theorem pagesOf_append (earlier later : List (Exchange Wire)) : pagesOf (earlier ++ later) = pagesOf earlier ++ pagesOf later :=
  List.filterMap_append

theorem pagesOf_answer {request : HttpRequest} (answered : answer.page = some page) :
    pagesOf [⟨.http request, answer⟩] = [page] := by
  simp [pagesOf, answerOf, answered]

theorem listed_append (earlier later : List (Exchange Wire)) : listed (earlier ++ later) = listed earlier ++ listed later := by
  rw [listed, pagesOf_append, List.flatMap_append]
  rfl

theorem listed_answer {request : HttpRequest} (answered : answer.page = some page) :
    listed [⟨.http request, answer⟩] = page.jobs := by
  rw [listed, pagesOf_answer answered, List.flatMap_singleton]

/-- Pages that all have jobs hang together. -/
theorem steady_of_jobs {inner : List (Exchange Wire)}
    (jobs : ∀ x ∈ inner, ∃ page, (answerOf x).bind HttpReply.page = some page ∧ page.jobs ≠ []) : Steady inner := by
  constructor
  · rintro earlier x later page rfl answered empty
    obtain ⟨same, answered', some⟩ := jobs x (by simp)
    cases answered.symm.trans answered'
    exact absurd empty some
  · rintro earlier x later body rfl missing
    obtain ⟨page, answered, _⟩ := jobs x (by simp)
    rw [missing] at answered
    cases answered

section Listing

variable {c : Client} {owner repo : String} {runID attempt : Int}

/-- A successful listing ends with a page, and every page before it had jobs and left some out. -/
theorem attemptPages_ok {out : List RESTJob} : ∀ {left : Nat} {page : Int} {jobs : List RESTJob} {inner : List (Exchange Wire)},
    (c.attemptPages owner repo runID attempt left page jobs).Returns inner (.ok out) →
    out = jobs ++ listed inner ∧ ∃ earlier x last, inner = earlier ++ [x] ∧ (answerOf x).bind HttpReply.page = some last ∧
      (last.jobs = [] ∨ last.totalCount ≤ (out.length : Int))
  | 0, page, jobs, inner, run => by
    cases run.of_pure
  | left + 1, page, jobs, inner, run => by
    obtain ⟨answer, later, rfl, ⟨rfl, stops⟩ | ⟨more, goesOn, rest⟩⟩ := attemptPages_succ run
    · obtain ⟨last, answered, rfl, complete⟩ := readPage_ok stops
      exact ⟨congrArg (jobs ++ ·) (listed_answer answered).symm, [], _, last, rfl, answered, complete⟩
    · obtain ⟨page, answered, _, rfl, _⟩ := readPage_more goesOn
      obtain ⟨rfl, earlier, x, last, rfl, ended, complete⟩ := attemptPages_ok rest
      refine ⟨?_, _ :: earlier, x, last, rfl, ended, complete⟩
      rw [List.append_assoc, ← listed_answer answered, ← listed_append]
      rfl

/-- A missing attempt is reported after a 404, and that answer is the last one. -/
theorem attemptPages_notFound {e : GoError} (missing : errorIs (some e) .attemptNotFound = true) :
    ∀ {left : Nat} {page : Int} {jobs : List RESTJob} {inner : List (Exchange Wire)},
    (c.attemptPages owner repo runID attempt left page jobs).Returns inner (.error e) →
    ∃ earlier x body, inner = earlier ++ [x] ∧ answerOf x = some (.answered 404 body)
  | 0, page, jobs, inner, run => by
    cases run.of_pure
    cases missing
  | left + 1, page, jobs, inner, run => by
    obtain ⟨answer, later, rfl, ⟨rfl, stops⟩ | ⟨more, goesOn, rest⟩⟩ := attemptPages_succ run
    · obtain ⟨body, rfl⟩ := (readPage_error stops).mp missing
      exact ⟨[], _, body, rfl, rfl⟩
    · obtain ⟨earlier, x, body, rfl, ended⟩ := attemptPages_notFound missing rest
      exact ⟨_ :: earlier, x, body, rfl, ended⟩

/-- Every answer of a call is read: the last one ends it, the others let it go on. -/
theorem attemptPages_reads {reply : Except GoError (List RESTJob)} :
    ∀ {earlier : List (Exchange Wire)} {left : Nat} {page : Int} {jobs : List RESTJob},
    (c.attemptPages owner repo runID attempt left page jobs).Returns (earlier ++ x :: later) reply →
    ∃ answer read, answerOf x = some answer ∧
      ((later = [] ∧ readPage read answer = .stop reply) ∨ ∃ more, readPage read answer = .more more)
  | earlier, 0, page, jobs, run => by
    obtain ⟨none, _⟩ := returns_pure.mp run
    exact absurd none (List.append_ne_nil_of_right_ne_nil earlier (List.cons_ne_nil x later))
  | [], left + 1, page, jobs, run => by
    obtain ⟨answer, _, same, turn⟩ := attemptPages_succ run
    cases same
    exact ⟨answer, jobs, rfl, turn.imp_right fun ⟨more, goesOn, _⟩ => ⟨more, goesOn⟩⟩
  | y :: earlier, left + 1, page, jobs, run => by
    obtain ⟨answer, _, same, ⟨rfl, _⟩ | ⟨more, _, rest⟩⟩ := attemptPages_succ run
    · exact absurd (List.cons.inj same).2 (List.append_ne_nil_of_right_ne_nil earlier (List.cons_ne_nil x later))
    · cases same
      exact attemptPages_reads rest

/-- An empty page ends the call with success. -/
theorem attemptPages_empty {reply : Except GoError (List RESTJob)} {left : Nat} {n : Int} {jobs : List RESTJob}
    (run : (c.attemptPages owner repo runID attempt left n jobs).Returns (earlier ++ x :: later) reply)
    (answered : (answerOf x).bind HttpReply.page = some page) (empty : page.jobs = []) :
    later = [] ∧ ∃ out, reply = .ok out := by
  obtain ⟨answer, read, same, turn⟩ := attemptPages_reads run
  rw [same] at answered
  obtain ⟨rfl, stops⟩ | ⟨more, goesOn⟩ := turn
  · refine ⟨rfl, ?_⟩
    cases answer with
    | failed text => cases answered
    | answered status body =>
      obtain ⟨rfl, rfl⟩ : status = 200 ∧ body = some page := by simpa [HttpReply.page] using answered
      simp only [readPage, empty] at stops
      cases stops
      exact ⟨_, rfl⟩
  · obtain ⟨other, answered', some, _⟩ := readPage_more goesOn
    cases answered.symm.trans answered'
    exact absurd empty some

/-- A 404 ends the call with a missing attempt. -/
theorem attemptPages_missing {body : Option JobsPage} {reply : Except GoError (List RESTJob)} {left : Nat} {n : Int}
    {jobs : List RESTJob}
    (run : (c.attemptPages owner repo runID attempt left n jobs).Returns (earlier ++ x :: later) reply)
    (answered : answerOf x = some (.answered 404 body)) : later = [] ∧ reply = .error errAttemptNotFound := by
  obtain ⟨answer, read, same, turn⟩ := attemptPages_reads run
  cases answered.symm.trans same
  obtain ⟨rfl, stops⟩ | ⟨more, goesOn⟩ := turn
  · cases stops
    exact ⟨rfl, rfl⟩
  · cases goesOn

end Listing

/-! ## A list served in pages -/

/-- The pages a list of jobs takes: the first page is asked for in any case. -/
def pageCount (size total : Nat) : Nat := max 1 ((total + size - 1) / size)

/-- The page after the first `n` of a list served in pages of one size. -/
def served (size : Nat) (all : List RESTJob) (n : Nat) : HttpReply :=
  .answered 200 (some ⟨all.length, (all.drop (n * size)).take size⟩)

/-- The request for that page. -/
def Client.pageRequest (c : Client) (owner repo : String) (runID attempt : Int) (n : Nat) : HttpRequest :=
  ⟨.get, c.base ++ jobsPath owner repo runID attempt (n + 1), "Bearer " ++ c.token⟩

theorem le_pageCount_mul (positive : 0 < size) (total : Nat) : total ≤ pageCount size total * size := by
  have reached : total ≤ (total + size - 1) / size * size := by
    have := Nat.lt_div_mul_add positive (a := total + size - 1)
    omega
  exact reached.trans (Nat.mul_le_mul_right size (Nat.le_max_right ..))

theorem mul_lt_of_lt_pageCount {total n : Nat} (positive : 0 < size) (later : 0 < n)
    (short : n < pageCount size total) :
    n * size < total := by
  have short : n < (total + size - 1) / size := by
    rw [pageCount] at short
    omega
  have := (Nat.lt_div_iff_mul_lt positive).mp short
  omega

/-- After `n` whole pages the next one ends the listing or adds itself to it. -/
theorem readPage_served (positive : 0 < size) (all : List RESTJob) (n : Nat) :
    readPage (all.take (n * size)) (served size all n) =
      if all.length ≤ (n + 1) * size then .stop (.ok all) else .more (all.take ((n + 1) * size)) := by
  have joined : all.take (n * size) ++ (all.drop (n * size)).take size = all.take ((n + 1) * size) := by
    rw [Nat.succ_mul, List.take_add]
  have read : readPage (all.take (n * size)) (served size all n) =
      if ((all.drop (n * size)).take size).length = 0 ∨ ((all.take ((n + 1) * size)).length : Int) ≥ all.length
      then .stop (.ok (all.take ((n + 1) * size))) else .more (all.take ((n + 1) * size)) := by
    rw [← joined]
    rfl
  rw [read]
  by_cases complete : all.length ≤ (n + 1) * size
  · rw [if_pos complete, if_pos (.inr (by rw [List.take_of_length_le complete])), List.take_of_length_le complete]
  · rw [if_neg complete, if_neg]
    rw [Nat.succ_mul] at complete ⊢
    simp only [List.length_take, List.length_drop]
    omega

/-- One turn of the loop in fixed surroundings. -/
theorem attemptPages_respond {c : Client} {owner repo : String} {runID attempt : Int}
    {server : (request : WireRequest) → WireReply request} {n : Nat}
    (answers : server (.http (c.pageRequest owner repo runID attempt n)) = answer) (left : Nat) (jobs : List RESTJob) :
    (c.attemptPages owner repo runID attempt (left + 1) (n + 1) jobs).respond (S := Wire) server =
      match readPage jobs answer with
      | .stop result => ([⟨.http (c.pageRequest owner repo runID attempt n), answer⟩], result)
      | .more jobs =>
        let (later, result) := (c.attemptPages owner repo runID attempt left (n + 1 + 1) jobs).respond (S := Wire) server
        (⟨.http (c.pageRequest owner repo runID attempt n), answer⟩ :: later, result) := by
  subst answers
  have called : (c.attemptPages owner repo runID attempt (left + 1) (n + 1) jobs) =
      .call (S := Wire) (.http (c.pageRequest owner repo runID attempt n)) fun answer =>
        match readPage jobs answer with
        | .stop result => .done result
        | .more jobs => c.attemptPages owner repo runID attempt left (n + 1 + 1) jobs := rfl
  rw [called, Program.respond]
  cases readPage jobs (server (.http (c.pageRequest owner repo runID attempt n))) <;> rfl

/-- The listing of a list that is served unchanged, from any page on. -/
theorem attemptPages_served {c : Client} {owner repo : String} {runID attempt : Int} (positive : 0 < size)
    {all : List RESTJob} {server : (request : WireRequest) → WireReply request}
    (serves : ∀ n < pageCount size all.length,
      server (.http (c.pageRequest owner repo runID attempt n)) = served size all n) :
    ∀ (remaining n left : Nat), n + (remaining + 1) = pageCount size all.length → remaining < left →
    (c.attemptPages owner repo runID attempt left (n + 1) (all.take (n * size))).respond (S := Wire) server =
      ((List.range' n (remaining + 1)).map fun k => ⟨.http (c.pageRequest owner repo runID attempt k), served size all k⟩, .ok all)
  | _, _, 0, _, enough => by cases enough
  | 0, n, left + 1, count, _ => by
    have complete : all.length ≤ (n + 1) * size := by
      rw [count]
      exact le_pageCount_mul positive all.length
    rw [attemptPages_respond (serves n (by omega)), readPage_served positive, if_pos complete]
    rfl
  | remaining + 1, n, left + 1, count, enough => by
    have incomplete : ¬all.length ≤ (n + 1) * size :=
      not_le.mpr (mul_lt_of_lt_pageCount positive n.succ_pos (by omega))
    have rest := attemptPages_served positive serves remaining (n + 1) left (by omega) (Nat.lt_of_succ_lt_succ enough)
    push_cast at rest
    rw [attemptPages_respond (serves n (by omega)), readPage_served positive, if_neg incomplete]
    dsimp only
    rw [rest]
    rfl

/-- What a call comes back with is as much as the last page reports, and a missing attempt
    had no page that was found. -/
structure Complete (inner : List (Exchange Wire)) (reply : Except GoError (List RESTJob)) : Prop where
  whole : ∀ out, reply = .ok out → ∃ last, (pagesOf inner).getLast? = some last ∧ last.totalCount ≤ (out.length : Int)
  missing : ∀ e, reply = .error e → errorIs (some e) .attemptNotFound = true → ∀ x ∈ inner, ¬found x

section Completeness

variable {c : Client} {owner repo : String} {runID attempt : Int} {inner : List (Exchange Wire)}
  {reply : Except GoError (List RESTJob)}

theorem pagesOf_last (earlier : List (Exchange Wire)) {last : JobsPage} (answered : (answerOf x).bind HttpReply.page = some last) :
    (pagesOf (earlier ++ [x])).getLast? = some last ∧ listed (earlier ++ [x]) = listed earlier ++ last.jobs := by
  have ended : pagesOf [x] = [last] := by simp [pagesOf, answered]
  refine ⟨by rw [pagesOf_append, ended, List.getLast?_concat], ?_⟩
  rw [listed_append, listed.eq_def [x], ended, List.flatMap_singleton]

theorem Steady.complete (run : (c.attemptJobs owner repo runID attempt).Returns inner reply) (steady : Steady inner) :
    Complete inner reply := by
  constructor
  · rintro out rfl
    obtain ⟨same, earlier, x, last, rfl, answered, complete⟩ := attemptPages_ok run
    obtain ⟨ended, together⟩ := pagesOf_last earlier answered
    refine ⟨last, ended, ?_⟩
    obtain empty | complete := complete
    · -- the listing stopped at an empty page: the pages before it reach its total
      have reached := steady.full earlier x [] last rfl answered empty
      rwa [same, List.nil_append, together, empty, List.append_nil]
    · exact complete
  · rintro e rfl missing y member ⟨body, answered⟩
    obtain ⟨earlier, x, body', rfl, ended⟩ := attemptPages_notFound missing run
    obtain before | rfl := List.mem_append.mp member |>.imp_right List.mem_singleton.mp
    · exact steady.kept earlier x [] body' rfl ended y before ⟨body, answered⟩
    · rw [ended] at answered
      cases answered

theorem Complete.steady (run : (c.attemptJobs owner repo runID attempt).Returns inner reply)
    (complete : Complete inner reply) : Steady inner := by
  constructor
  · rintro earlier x later page rfl answered empty
    obtain ⟨rfl, out, rfl⟩ := attemptPages_empty run answered empty
    obtain ⟨ended, together⟩ := pagesOf_last earlier answered
    obtain ⟨last, same, reached⟩ := complete.whole out rfl
    cases ended.symm.trans same
    rwa [(attemptPages_ok run).1, List.nil_append, together, empty, List.append_nil] at reached
  · rintro earlier x later body rfl answered y before
    obtain ⟨rfl, rfl⟩ := attemptPages_missing run answered
    exact complete.missing _ rfl rfl y (List.mem_append_left _ before)

end Completeness

/-- `AttemptJobs` returns the jobs of the pages it was answered, in their order.  They are
    as many as the last page reports, and a missing attempt had no page that was found, if
    and only if the answers of the listing hang together.  A list served unchanged in pages
    of one size is returned whole, and no page is asked for after the one that completes
    it. -/
theorem attemptJobs_complete (c : Client) (owner repo : String) (runID attempt : Int) :
    (∀ inner reply, (c.attemptJobs owner repo runID attempt).Returns inner reply →
      (∀ out, reply = .ok out → out = listed inner) ∧ (Complete inner reply ↔ Steady inner)) ∧
    (∀ (size : Nat) (all : List RESTJob) (server : (request : WireRequest) → WireReply request), 0 < size →
      (∀ n < pageCount size all.length,
        server (.http (c.pageRequest owner repo runID attempt n)) = served size all n) →
      pageCount size all.length ≤ c.pages →
      (c.attemptJobs owner repo runID attempt).respond (S := Wire) server =
        ((List.range (pageCount size all.length)).map fun n =>
          ⟨.http (c.pageRequest owner repo runID attempt n), served size all n⟩, .ok all)) := by
  refine ⟨fun inner reply run => ⟨?_, Complete.steady run, Steady.complete run⟩, ?_⟩
  · rintro out rfl
    exact (attemptPages_ok run).1
  · intro size all server positive serves enough
    have first : 1 ≤ pageCount size all.length := Nat.le_max_left ..
    have listing := attemptPages_served positive serves (pageCount size all.length - 1) 0 c.pages
      (by omega) (by omega)
    rw [Nat.sub_add_cancel first, ← List.range_eq_range', Nat.zero_mul, List.take_zero] at listing
    exact listing

section Instances

def listingClient : Client := { token := "fixture-token", pages := 3 }

def jobOf (id : Int) : RESTJob := { id, runID := 99, attempt := 2, runnerName := "rs-a", status := "completed" }

/-- GitHub with one answer for the first page of the attempt and one for every later page. -/
def twoPages (first later : HttpReply) : (request : WireRequest) → WireReply request
  | .http request => if request = listingClient.pageRequest "acme" "widgets" 99 2 0 then first else later
  | .api request => silence request

/-- An empty page ends the listing with one job of three, and a 404 for the second page
    reports as missing an attempt whose first page was found. -/
theorem attemptJobs_truncates_and_misclassifies :
    (∃ inner out last, (listingClient.attemptJobs "acme" "widgets" 99 2).Returns inner (.ok out) ∧
      (pagesOf inner).getLast? = some last ∧ (out.length : Int) < last.totalCount) ∧
    ∃ inner, (listingClient.attemptJobs "acme" "widgets" 99 2).Returns inner (.error errAttemptNotFound) ∧
      ∃ x ∈ inner, found x := by
  have truncated := returns_respond (S := Wire)
    (twoPages (.answered 200 (some ⟨3, [jobOf 1]⟩)) (.answered 200 (some ⟨3, []⟩)))
    (listingClient.attemptJobs "acme" "widgets" 99 2)
  have vanished := returns_respond (S := Wire)
    (twoPages (.answered 200 (some ⟨3, [jobOf 1]⟩)) (.answered 404 none))
    (listingClient.attemptJobs "acme" "widgets" 99 2)
  exact ⟨⟨_, [jobOf 1], ⟨3, []⟩, truncated, rfl, by decide⟩,
    _, vanished, _, List.mem_cons_self, some ⟨3, [jobOf 1]⟩, rfl⟩

def threeJobs : List RESTJob := [jobOf 1, jobOf 2, jobOf 3]

/-- Three jobs served two on a page are listed after two requests, and the answers of that
    listing hang together. -/
theorem attemptJobs_complete_threeJobs :
    ∃ inner, (listingClient.attemptJobs "acme" "widgets" 99 2).Returns inner (.ok threeJobs) ∧ inner.length = 2 ∧
      threeJobs = listed inner ∧
      ∃ last, (pagesOf inner).getLast? = some last ∧ last.totalCount ≤ (threeJobs.length : Int) := by
  have serves : ∀ n < pageCount 2 threeJobs.length,
      twoPages (served 2 threeJobs 0) (served 2 threeJobs 1)
        (.http (listingClient.pageRequest "acme" "widgets" 99 2 n)) = served 2 threeJobs n := by
    decide
  have listing := (attemptJobs_complete listingClient "acme" "widgets" 99 2).2 2 threeJobs _ (by decide) serves (by decide)
  have run := returns_respond (S := Wire) (twoPages (served 2 threeJobs 0) (served 2 threeJobs 1))
    (listingClient.attemptJobs "acme" "widgets" 99 2)
  rw [listing] at run
  obtain ⟨whole, complete⟩ := (attemptJobs_complete listingClient "acme" "widgets" 99 2).1 _ _ run
  refine ⟨_, run, rfl, whole _ rfl, (complete.mpr (steady_of_jobs ?_)).whole _ rfl⟩
  intro x member
  obtain ⟨n, below, rfl⟩ := List.mem_map.mp member
  have jobs : ∀ n < 2, (threeJobs.drop (n * 2)).take 2 ≠ [] := by decide
  exact ⟨_, rfl, jobs n (List.mem_range.mp below)⟩

end Instances

end RunnerScout.Githubjobs
