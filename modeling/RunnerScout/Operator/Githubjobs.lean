import RunnerScout.Interaction.Trace
import RunnerScout.Operator.Calls

/-! # The GitHub jobs client

`githubjobs.Client`: the two REST calls of the retry pass, over HTTP.  What the pass is
told of an answer is its class: the jobs of an attempt, an attempt that does not exist,
a rejected rerun, or an error that says neither.
-/

namespace RunnerScout.Githubjobs

open Interaction Program Operator Recovery

variable {jobs : List RESTJob} {answer : HttpReply}

/-! ## HTTP -/

inductive Method where
  | get
  | post
deriving DecidableEq, Repr

structure HttpRequest where
  method : Method
  url : String
  authorization : String
deriving DecidableEq, Repr

/-- A decoded page of `attemptJobsResponse`. -/
structure JobsPage where
  totalCount : Int
  jobs : List RESTJob
deriving DecidableEq, Repr

/-- What `http.Client.Do` returns: a transport error, or a response with its body, which
    may not decode. -/
inductive HttpReply where
  | failed (text : String)
  | answered (status : Nat) (body : Option JobsPage)
deriving DecidableEq, Repr

/-- The requests of a pass once the jobs client is put in place of its interface. -/
inductive WireRequest where
  | api (request : ApiRequest)
  | http (request : HttpRequest)

abbrev WireReply : WireRequest → Type
  | .api request => ApiReply request
  | .http _ => HttpReply

abbrev Wire : Signature := ⟨WireRequest, WireReply⟩

/-! ## The client -/

structure Client where
  baseURL : String := ""
  token : String := ""
  /-- The pages read before the deadline of a call strikes. -/
  pages : Nat

def errAttemptNotFound : GoError := ⟨[.attemptNotFound], "GitHub reports no such workflow run attempt"⟩

def errDeadline : GoError := .new "context deadline exceeded"

namespace Client

variable (c : Client)

def base : String := if c.baseURL ≠ "" then c.baseURL else "https://api.github.com"

/-- `do`: one authenticated request. -/
def send (method : Method) (path : String) : Program Wire HttpReply :=
  ask (S := Wire) (.http ⟨method, c.base ++ path, "Bearer " ++ c.token⟩)

def jobsPath (owner repo : String) (runID attempt page : Int) : String :=
  "/repos/" ++ owner ++ "/" ++ repo ++ "/actions/runs/" ++ toString runID ++ "/attempts/" ++ toString attempt
    ++ "/jobs?per_page=100&page=" ++ toString page

/-- What the loop of `AttemptJobs` makes of one page: the result of the call, or the jobs
    to go on with. -/
inductive PageOutcome where
  | stop (result : Except GoError (List RESTJob))
  | more (jobs : List RESTJob)

def readPage (jobs : List RESTJob) : HttpReply → PageOutcome
  | .failed text => .stop (.error (.new text))
  | .answered status body =>
    if status = 404 then .stop (.error errAttemptNotFound)
    else if status ≠ 200 then
      .stop (.error (.new ("GitHub attempt jobs request failed with status " ++ toString status)))
    else
      match body with
      | none => .stop (.error (.new "GitHub attempt jobs response malformed"))
      | some decoded =>
        let jobs := jobs ++ decoded.jobs
        if decoded.jobs.length = 0 ∨ (jobs.length : Int) ≥ decoded.totalCount then .stop (.ok jobs) else .more jobs

/-- The loop, from a page on. -/
def attemptPages (owner repo : String) (runID attempt : Int) :
    Nat → Int → List RESTJob → Program Wire (Except GoError (List RESTJob))
  | 0, _, _ => return .error errDeadline
  | left + 1, page, jobs => do
    match readPage jobs (← c.send .get (jobsPath owner repo runID attempt page)) with
    | .stop result => return result
    | .more jobs => attemptPages owner repo runID attempt left (page + 1) jobs

def attemptJobs (owner repo : String) (runID attempt : Int) : Program Wire (Except GoError (List RESTJob)) :=
  c.attemptPages owner repo runID attempt c.pages 1 []

end Client

/-! ## One page -/

/-- A page that was answered 200 and decodes. -/
def HttpReply.page : HttpReply → Option JobsPage
  | .failed _ => none
  | .answered status body => if status = 200 then body else none

open Client

/-- The loop goes on after a page with jobs that leaves some out, and after nothing else. -/
theorem readPage_more {later : List RESTJob} (more : readPage jobs answer = .more later) :
    ∃ page, answer.page = some page ∧ page.jobs ≠ [] ∧ later = jobs ++ page.jobs ∧
      (later.length : Int) < page.totalCount := by
  cases answer with
  | failed text => cases more
  | answered status body =>
    dsimp only [readPage] at more
    split at more
    · cases more
    split at more
    · cases more
    rename_i found
    cases body with
    | none => cases more
    | some page =>
      dsimp only at more
      split at more
      · cases more
      rename_i incomplete
      cases more
      obtain ⟨some, short⟩ := not_or.mp incomplete
      exact ⟨page, if_pos (not_not.mp found), fun none => some (by rw [none]; rfl), rfl, not_le.mp short⟩

theorem readPage_ok {out : List RESTJob} (ended : readPage jobs answer = .stop (.ok out)) :
    ∃ page, answer.page = some page ∧ out = jobs ++ page.jobs ∧
      (page.jobs = [] ∨ page.totalCount ≤ (out.length : Int)) := by
  cases answer with
  | failed text => cases ended
  | answered status body =>
    dsimp only [readPage] at ended
    split at ended
    · cases ended
    split at ended
    · cases ended
    rename_i found
    cases body with
    | none => cases ended
    | some page =>
      dsimp only at ended
      split at ended
      · rename_i complete
        cases ended
        exact ⟨page, if_pos (not_not.mp found), rfl, complete.imp List.length_eq_zero_iff.mp id⟩
      · cases ended

/-- Only a 404 is reported as a missing attempt. -/
theorem readPage_error {e : GoError} (ended : readPage jobs answer = .stop (.error e)) :
    errorIs (some e) .attemptNotFound = true ↔ ∃ body, answer = .answered 404 body := by
  cases answer with
  | failed text =>
    cases ended
    exact iff_of_false (by simp [errorIs, GoError.new]) fun ⟨_, same⟩ => by cases same
  | answered status body =>
    dsimp only [readPage] at ended
    split at ended
    · rename_i missing
      cases ended
      exact iff_of_true rfl ⟨body, by rw [missing]⟩
    rename_i other
    refine iff_of_false ?_ fun ⟨_, same⟩ => by cases same; exact other rfl
    split at ended
    · cases ended
      simp [errorIs, GoError.new]
    cases body with
    | none =>
      cases ended
      simp [errorIs, GoError.new]
    | some page =>
      dsimp only at ended
      split at ended <;> cases ended

/-! ## The whole call -/

section Calls

variable {c : Client} {owner repo : String} {runID attempt : Int} {inner : List (Exchange Wire)}
  {reply : Except GoError (List RESTJob)}

/-- The answer of an HTTP exchange. -/
def answerOf : Exchange Wire → Option HttpReply
  | ⟨.http _, reply⟩ => some reply
  | _ => none

/-- One turn of the loop. -/
theorem attemptPages_succ {left : Nat} {page : Int}
    (run : (c.attemptPages owner repo runID attempt (left + 1) page jobs).Returns inner reply) :
    ∃ answer later,
      inner = ⟨.http ⟨.get, c.base ++ jobsPath owner repo runID attempt page, "Bearer " ++ c.token⟩, answer⟩ :: later ∧
      ((later = [] ∧ readPage jobs answer = .stop reply) ∨
        ∃ more, readPage jobs answer = .more more ∧
          (c.attemptPages owner repo runID attempt left (page + 1) more).Returns later reply) := by
  obtain ⟨answer, later, rfl, rest⟩ := returns_ask.mp run
  refine ⟨answer, later, rfl, ?_⟩
  cases outcome : readPage jobs answer with
  | stop result =>
    rw [outcome] at rest
    obtain ⟨rfl, rfl⟩ := returns_pure.mp rest
    exact .inl ⟨rfl, rfl⟩
  | more more =>
    rw [outcome] at rest
    exact .inr ⟨more, rfl, rest⟩

end Calls

end RunnerScout.Githubjobs
