/-
The Salesforce connector, over one Bulk API query job.

An offset names the job, the page being consumed and the rows already taken
from that page. The service is a parameter of each call, so that every call may
meet another state of the job and other failures; all that is asked of it is
that a page it does return is the page of that job and locator.
-/

import Mathlib.Data.List.Infix
import MigrationPlatform.Connectors.Ingest

namespace MigrationPlatform.Connectors

structure SfConfig where
  soql : String
  tokenUrl : String
  cursorField : String := ""
  cursor : String := ""

/-- The answers of the service during one call of `Ingest`. `results` is a page,
parsed, with the `Sforce-Locator` header. -/
structure SfService where
  oAuthToken : Except String String
  createQueryJob : String → Except String String
  jobState : String → Except String String
  results : String → String → Except String (List Data × String)

inductive SfRequest
  | token
  | create (soql : String)
  | state (job : String)
  | results (job locator : String)
deriving DecidableEq, Repr

def SfRequest.IsOf (job : String) : SfRequest → Prop
  | .token => True
  | .create _ => False
  | .state asked => asked = job
  | .results asked _ => asked = job

/-- The flag `done` is left out: nothing follows a `Next` that reports the end. -/
structure SfIter where
  jobID : String
  ready : Bool := false
  locator : String := ""
  next : String := ""
  skip : Int := 0
  buffered : List Data := []
  loaded : Bool := false
  cursor : Int := 0
  idx : Int := 0

def SfIter.offset (it : SfIter) : Offset :=
  if it.loaded = false then
    { items := it.idx, salesforceJobID := it.jobID, salesforceLocator := it.locator,
      salesforceSkip := it.skip }
  else if (it.buffered.length : Int) ≤ it.cursor ∧ it.next ≠ "" then
    { items := it.idx, salesforceJobID := it.jobID, salesforceLocator := it.next,
      salesforceSkip := 0 }
  else
    { items := it.idx, salesforceJobID := it.jobID, salesforceLocator := it.locator,
      salesforceSkip := it.cursor }

def SfConfig.query (cfg : SfConfig) : String :=
  if cfg.cursorField ≠ "" ∧ cfg.cursor ≠ "" then
    if "WHERE".toList <:+: cfg.soql.toList then
      cfg.soql ++ " AND " ++ cfg.cursorField ++ " >= " ++ cfg.cursor
    else cfg.soql ++ " WHERE " ++ cfg.cursorField ++ " >= " ++ cfg.cursor
  else cfg.soql

def Offset.SfStarted (offset : Offset) : Prop :=
  0 < offset.items ∨ offset.salesforceLocator ≠ "" ∨ 0 < offset.salesforceSkip

instance (offset : Offset) : Decidable offset.SfStarted :=
  inferInstanceAs (Decidable (_ ∨ _ ∨ _))

def SfIter.ofOffset (offset : Offset) : SfIter where
  jobID := offset.salesforceJobID
  locator := offset.salesforceLocator
  skip := offset.salesforceSkip
  idx := offset.items

def sfOpen (cfg : SfConfig) (service : SfService) (offset : Offset) :
    Except SourceError SfIter × List SfRequest :=
  if cfg.soql = "" then
    (.error (.other "salesforce connector requires 'soql' in config"), [])
  else if cfg.tokenUrl = "" then
    (.error (.other "salesforce connector requires 'tokenUrl'"), [])
  else
    match service.oAuthToken with
    | .error message => (.error (.other message), [.token])
    | .ok _ =>
        if offset.salesforceJobID = "" then
          if offset.SfStarted then
            (.error (.invalidOffset ("invalid resume offset: salesforce offset at row " ++
              toString offset.items ++ " has no query job")), [.token])
          else
            match service.createQueryJob cfg.query with
            | .error message => (.error (.other message), [.token, .create cfg.query])
            | .ok job => (.ok { SfIter.ofOffset offset with jobID := job }, [.token, .create cfg.query])
        else (.ok { SfIter.ofOffset offset with ready := decide offset.SfStarted }, [.token])

def sfPoll (service : SfService) (it : SfIter) : Except SourceError SfIter × List SfRequest :=
  if it.ready = true then (.ok it, [])
  else
    match service.jobState it.jobID with
    | .error message => (.error (.other message), [.state it.jobID])
    | .ok state =>
        if state = "JobComplete" then (.ok { it with ready := true }, [.state it.jobID])
        else if state = "Failed" ∨ state = "Aborted" then
          (.error (.other ("sf job " ++ it.jobID ++ ": " ++ state)), [.state it.jobID])
        else (.error .notReady, [.state it.jobID])

/-- The locator behind a page, whose header is "null" on the last one. -/
def nextLocator (header : String) : String := if header = "null" then "" else header

def SfIter.turned (it : SfIter) : SfIter :=
  if it.loaded = true then { it with locator := it.next, skip := 0 } else it

def SfIter.holding (it : SfIter) (found : List Data × String) : SfIter :=
  { it.turned with
    buffered := found.1, next := nextLocator found.2, cursor := it.turned.skip, loaded := true }

/-- The loop of `Next`, which leaves an iterator that stands before a row. The
source has no bound on the pages it tries; here it is the first argument. -/
def sfLoad (service : SfService) :
    Nat → SfIter → Except (NextResult SfIter) SfIter × List SfRequest
  | 0, it => (.error (.failed it.offset (.other "too many pages")), [])
  | limit + 1, it =>
      if it.loaded = true ∧ it.cursor < it.buffered.length then (.ok it, [])
      else if it.loaded = true ∧ it.next = "" then (.error (.done it.offset), [])
      else
        match service.results it.jobID it.turned.locator with
        | .error message =>
            (.error (.failed it.turned.offset (.other message)),
              [.results it.jobID it.turned.locator])
        | .ok found =>
            if (found.1.length : Int) < it.turned.skip then
              (.error (.failed it.turned.offset (.invalidOffset ("invalid resume offset: page " ++
                it.turned.locator.quote ++ " has " ++ toString found.1.length ++
                " rows, offset skips " ++ toString it.turned.skip))),
                [.results it.jobID it.turned.locator])
            else
              ((sfLoad service limit (it.holding found)).1,
                .results it.jobID it.turned.locator :: (sfLoad service limit (it.holding found)).2)

/-- The row at the cursor. A negative cursor is an index out of range, which
panics; the activity fails. -/
def SfIter.take (it : SfIter) : NextResult SfIter :=
  match if it.cursor < 0 then none else it.buffered[it.cursor.toNat]? with
  | none => .failed it.offset (.other "index out of range")
  | some data =>
      let later := { it with cursor := it.cursor + 1, idx := it.idx + 1 }
      .row { index := it.idx, data := data } later.offset later

def sfNext (service : SfService) (limit : Nat) (it : SfIter) :
    NextResult SfIter × List SfRequest :=
  match sfPoll service it with
  | (.error err, asked) => (.failed it.offset err, asked)
  | (.ok it, asked) =>
      match sfLoad service limit it with
      | (.error result, fetched) => (result, asked ++ fetched)
      | (.ok it, fetched) => (it.take, asked ++ fetched)

def sfConnector (cfg : SfConfig) (service : SfService) (limit : Nat) : Connector SfIter where
  openAt := fun offset => (sfOpen cfg service offset).1
  next := fun it => (sfNext service limit it).1

def sfLoopRequests (service : SfService) (limit : Nat) : Nat → SfIter → List SfRequest
  | 0, _ => []
  | left + 1, it =>
      (sfNext service limit it).2 ++
        match (sfNext service limit it).1 with
        | .row _ _ later => sfLoopRequests service limit left later
        | _ => []

def sfRequests (cfg : SfConfig) (service : SfService) (limit : Nat) (offset : Offset)
    (batchSize : Int) : List SfRequest :=
  (sfOpen cfg service offset).2 ++
    match (sfOpen cfg service offset).1 with
    | .ok it => sfLoopRequests service limit (batchLimit batchSize) it
    | .error _ => []

structure SfCall where
  service : SfService
  batchSize : Int

/-- A call that was made: where, with what result and which requests. -/
structure SfRead where
  offset : Offset
  call : SfCall
  output : IngestOutput
  err : Option IngestError
  requests : List SfRequest

def sfRead (cfg : SfConfig) (limit : Nat) (offset : Offset) (call : SfCall) : SfRead where
  offset := offset
  call := call
  output := (ingest (sfConnector cfg call.service limit) offset call.batchSize).1
  err := (ingest (sfConnector cfg call.service limit) offset call.batchSize).2
  requests := sfRequests cfg call.service limit offset call.batchSize

def SfRead.Answered (read : SfRead) : Prop := read.err = none

instance (read : SfRead) : Decidable read.Answered :=
  inferInstanceAs (Decidable (_ = _))

/-- A call that fails returns no offset, and the next one is made where it was. -/
def SfRead.resumeAt (read : SfRead) : Offset :=
  if read.Answered then read.output.newOffset else read.offset

def sfReads (cfg : SfConfig) (limit : Nat) : Offset → List SfCall → List SfRead
  | _, [] => []
  | offset, call :: rest =>
      let read := sfRead cfg limit offset call
      if read.Answered ∧ read.output.done = true then [read]
      else read :: sfReads cfg limit read.resumeAt rest

def SfRead.delivered (read : SfRead) : List Row :=
  if read.Answered then read.output.rows else []

def SfRead.asked (read : SfRead) : Nat :=
  if read.Answered ∧ read.output.pending = false then batchLimit read.call.batchSize else 0

def sfAsked : List SfRead → Nat
  | [] => 0
  | read :: rest => read.asked + sfAsked rest

def sfFinished (reads : List SfRead) : Prop :=
  ∃ read ∈ reads, read.Answered ∧ read.output.done = true

def numbered (index : Int) : List Data → List Row
  | [] => []
  | data :: rest => { index := index, data := data } :: numbered (index + 1) rest

/-! ### Pages -/

inductive Paging (page : String → List Data × String) : String → List (List Data) → Prop
  | last {locator : String} (ends : nextLocator (page locator).2 = "") :
      Paging page locator [(page locator).1]
  | more {locator : String} {rest : List (List Data)} (goes : nextLocator (page locator).2 ≠ "")
      (tail : Paging page (nextLocator (page locator).2) rest) :
      Paging page locator ((page locator).1 :: rest)

/-- A service that returns the same page for the same job and locator, and
whose jobs have an id and finitely many pages. -/
structure SfService.Serves (service : SfService) (page : String → String → List Data × String)
    (pages : String → List (List Data)) : Prop where
  results : ∀ job locator found,
    service.results job locator = .ok found → found = page job locator
  created : ∀ soql job, service.createQueryJob soql = .ok job →
    job ≠ "" ∧ Paging (page job) "" (pages job)

/-- A service that answers every request, with a job that is not lost. -/
structure SfService.Up (service : SfService) : Prop where
  token : ∃ token, service.oAuthToken = .ok token
  create : ∀ soql, ∃ job, service.createQueryJob soql = .ok job
  state : ∀ job, ∃ state, service.jobState job = .ok state ∧ state ≠ "Failed" ∧ state ≠ "Aborted"
  results : ∀ job locator, ∃ found, service.results job locator = .ok found

def SfConfig.Complete (cfg : SfConfig) : Prop := cfg.soql ≠ "" ∧ cfg.tokenUrl ≠ ""

/-- The rows of at most so many pages, when a page names its successor so. -/
inductive AfterPage (page : String → List Data × String) : Nat → String → List Data → Prop
  | ended {limit : Nat} : AfterPage page limit "" []
  | next {limit : Nat} {locator : String} {rest : List Data} (named : locator ≠ "")
      (tail : AfterPage page limit (nextLocator (page locator).2) rest) :
      AfterPage page (limit + 1) locator ((page locator).1 ++ rest)

def Stands (page : String → List Data × String) (limit : Nat) (locator : String) (skip : Int)
    (rest : List Data) : Prop :=
  ∃ taken following, skip = Int.ofNat taken ∧ taken ≤ (page locator).1.length ∧
    rest = (page locator).1.drop taken ++ following ∧
    AfterPage page limit (nextLocator (page locator).2) following

section Positions

variable {page : String → List Data × String} {limit : Nat} {locator : String}
variable {rest : List Data}

theorem AfterPage.succ (after : AfterPage page limit locator rest) :
    AfterPage page (limit + 1) locator rest := by
  induction after with
  | ended => exact .ended
  | next named tail ih => exact .next named ih

private theorem AfterPage.eq_nil (after : AfterPage page limit "" rest) : rest = [] := by
  cases after with
  | ended => rfl
  | next named => exact absurd rfl named

theorem AfterPage.exists_page (named : locator ≠ "")
    (after : AfterPage page limit locator rest) :
    ∃ fewer following, limit = fewer + 1 ∧ rest = (page locator).1 ++ following ∧
      AfterPage page fewer (nextLocator (page locator).2) following := by
  cases after with
  | ended => exact absurd rfl named
  | next _ tail => exact ⟨_, _, rfl, rfl, tail⟩

theorem AfterPage.stands {following : List Data} (named : locator ≠ "")
    (after : AfterPage page limit locator following) : Stands page limit locator 0 following := by
  obtain ⟨fewer, later, rfl, split, tail⟩ := after.exists_page named
  exact ⟨0, later, rfl, Nat.zero_le _, split, tail.succ⟩

theorem Paging.after {pages : List (List Data)} (paged : Paging page locator pages)
    (within : pages.length ≤ limit + 1) :
    ∃ following, pages.flatten = (page locator).1 ++ following ∧
      AfterPage page limit (nextLocator (page locator).2) following := by
  induction paged generalizing limit with
  | last ends =>
      rw [ends]
      exact ⟨[], List.flatten_cons, .ended⟩
  | @more locator rest goes tail ih =>
      cases limit with
      | zero =>
          rw [List.length_cons] at within
          cases tail with
          | last => exact absurd within (by simp)
          | more => exact absurd within (by simp)
      | succ limit =>
          obtain ⟨following, split, after⟩ := ih (Nat.le_of_succ_le_succ within)
          refine ⟨rest.flatten, List.flatten_cons, ?_⟩
          rw [split]
          exact .next goes after

theorem Paging.stands {pages : List (List Data)} (paged : Paging page locator pages)
    (within : pages.length ≤ limit + 1) : Stands page limit locator 0 pages.flatten := by
  obtain ⟨following, split, after⟩ := paged.after within
  exact ⟨0, following, rfl, Nat.zero_le _, split, after⟩

theorem Stands.succ {skip : Int} (stands : Stands page limit locator skip rest) :
    Stands page (limit + 1) locator skip rest := by
  obtain ⟨taken, following, counted, within, split, after⟩ := stands
  exact ⟨taken, following, counted, within, split, after.succ⟩

end Positions

/-- The position of an iterator is in a page it still has to fetch, or in the
page it holds. -/
structure SfIter.Reads (page : String → List Data × String) (limit : Nat) (it : SfIter)
    (rest : List Data) : Prop where
  stands : Stands page limit it.locator (if it.loaded = true then it.cursor else it.skip) rest
  held : it.loaded = true →
    it.buffered = (page it.locator).1 ∧ it.next = nextLocator (page it.locator).2

structure Marks (page : String → List Data × String) (limit : Nat) (job : String) (idx : Int)
    (rest : List Data) (offset : Offset) : Prop where
  items : offset.items = idx
  job : offset.salesforceJobID = job
  stands : Stands page limit offset.salesforceLocator offset.salesforceSkip rest

inductive SfLoaded (page : String → List Data × String) (limit : Nat) (service : SfService)
    (it : SfIter) (rest : List Data) : Except (NextResult SfIter) SfIter → Prop
  | row {later : SfIter} (reads : later.Reads page limit rest) (loaded : later.loaded = true)
      (before : later.cursor < later.buffered.length) (job : later.jobID = it.jobID)
      (idx : later.idx = it.idx) (ready : later.ready = it.ready) :
      SfLoaded page limit service it rest (.ok later)
  | done {offset : Offset} (empty : rest = []) (marks : Marks page limit it.jobID it.idx [] offset) :
      SfLoaded page limit service it rest (.error (.done offset))
  | failed {offset : Offset} {message : String} (down : ¬service.Up) :
      SfLoaded page limit service it rest (.error (.failed offset (.other message)))

inductive SfStepped (page : String → List Data × String) (limit : Nat) (service : SfService)
    (it : SfIter) (rest : List Data) : NextResult SfIter → Prop
  | row {data : Data} {tail : List Data} {offset : Offset} {later : SfIter}
      (first : rest = data :: tail) (reads : later.Reads page limit tail)
      (job : later.jobID = it.jobID) (idx : later.idx = it.idx + 1) (ready : later.ready = true)
      (marks : Marks page limit it.jobID (it.idx + 1) tail offset) :
      SfStepped page limit service it rest (.row { index := it.idx, data := data } offset later)
  | done {offset : Offset} (empty : rest = []) (marks : Marks page limit it.jobID it.idx [] offset) :
      SfStepped page limit service it rest (.done offset)
  | pending (waits : it.ready = false) (marks : Marks page limit it.jobID it.idx rest it.offset) :
      SfStepped page limit service it rest (.failed it.offset .notReady)
  | failed {offset : Offset} {message : String} (down : ¬service.Up) :
      SfStepped page limit service it rest (.failed offset (.other message))

section Iterator

variable {page : String → List Data × String} {limit : Nat} {it : SfIter} {rest : List Data}
variable {service : SfService}

theorem SfIter.Reads.marks (reads : it.Reads page limit rest) :
    Marks page limit it.jobID it.idx rest it.offset := by
  have stands := reads.stands
  unfold SfIter.offset
  by_cases loaded : it.loaded = true
  · rw [if_pos loaded] at stands
    rw [if_neg (by rw [loaded]; decide)]
    obtain ⟨buffer, next⟩ := reads.held loaded
    split
    · -- The page is used up and has a successor: the offset stands before that one.
      rename_i consumed
      obtain ⟨taken, following, counted, within, split, after⟩ := stands
      have whole : (page it.locator).1.length ≤ taken := by
        have reached := consumed.1
        rw [buffer, counted] at reached
        exact Int.ofNat_le.mp reached
      rw [List.drop_eq_nil_of_le whole, List.nil_append] at split
      rw [← next, ← split] at after
      exact ⟨rfl, rfl, after.stands consumed.2⟩
    · exact ⟨rfl, rfl, stands⟩
  · rw [if_neg loaded] at stands
    rw [if_pos (Bool.eq_false_iff.mpr loaded)]
    exact ⟨rfl, rfl, stands⟩

theorem SfLoaded.succ {result : Except (NextResult SfIter) SfIter}
    (left : SfLoaded page limit service it rest result) :
    SfLoaded page (limit + 1) service it rest result := by
  cases left with
  | row reads loaded before job idx ready =>
      exact .row ⟨reads.stands.succ, reads.held⟩ loaded before job idx ready
  | done empty marks => exact .done empty ⟨marks.items, marks.job, marks.stands.succ⟩
  | failed down => exact .failed down

def SfService.Answers (service : SfService) (job : String) (page : String → List Data × String) :
    Prop :=
  ∀ locator found, service.results job locator = .ok found → found = page locator

theorem holding_jobID (it : SfIter) (found : List Data × String) :
    (it.holding found).jobID = it.jobID := by
  unfold SfIter.holding SfIter.turned
  split <;> rfl

private theorem holding_idx (it : SfIter) (found : List Data × String) :
    (it.holding found).idx = it.idx := by
  unfold SfIter.holding SfIter.turned
  split <;> rfl

private theorem holding_ready (it : SfIter) (found : List Data × String) :
    (it.holding found).ready = it.ready := by
  unfold SfIter.holding SfIter.turned
  split <;> rfl

theorem holding_reads
    (stands : Stands page limit it.turned.locator it.turned.skip rest) :
    (it.holding (page it.turned.locator)).Reads page limit rest :=
  ⟨stands, fun _ => ⟨rfl, rfl⟩⟩

theorem sfLoad_turn {fuel : Nat}
    (serves : service.Answers it.jobID page)
    (used : ¬(it.loaded = true ∧ it.cursor < it.buffered.length))
    (goes : ¬(it.loaded = true ∧ it.next = ""))
    (within : it.turned.skip ≤ (page it.turned.locator).1.length)
    (tail : SfLoaded page limit service (it.holding (page it.turned.locator)) rest
      (sfLoad service fuel (it.holding (page it.turned.locator))).1) :
    SfLoaded page limit service it rest (sfLoad service (fuel + 1) it).1 := by
  unfold sfLoad
  rw [if_neg used, if_neg goes]
  cases answered : service.results it.jobID it.turned.locator with
  | error message =>
      refine .failed (fun up => ?_)
      obtain ⟨found, returned⟩ := up.results it.jobID it.turned.locator
      rw [answered] at returned
      cases returned
  | ok found =>
      have same := serves _ _ answered
      subst same
      have job := holding_jobID it (page it.turned.locator)
      have idx := holding_idx it (page it.turned.locator)
      have ready := holding_ready it (page it.turned.locator)
      simp only [if_neg (Int.not_lt.mpr within)]
      revert tail
      generalize (sfLoad service fuel (it.holding (page it.turned.locator))).1 = result
      intro tail
      cases tail with
      | row reads loaded before sameJob sameIdx sameReady =>
          exact .row reads loaded before (sameJob.trans job) (sameIdx.trans idx)
            (sameReady.trans ready)
      | done empty marks =>
          rw [job, idx] at marks
          exact .done empty marks
      | failed down => exact .failed down

theorem sfLoad_held {fuel : Nat}
    (serves : service.Answers it.jobID page)
    (reads : it.Reads page limit rest) (loaded : it.loaded = true) (enough : limit < fuel) :
    SfLoaded page limit service it rest (sfLoad service fuel it).1 := by
  induction fuel generalizing limit it rest with
  | zero => exact absurd enough (Nat.not_lt_zero limit)
  | succ fuel ih =>
      by_cases before : it.cursor < it.buffered.length
      · unfold sfLoad
        rw [if_pos ⟨loaded, before⟩]
        exact .row reads loaded before rfl rfl rfl
      · have used : ¬(it.loaded = true ∧ it.cursor < it.buffered.length) :=
          fun both => before both.2
        obtain ⟨buffer, next⟩ := reads.held loaded
        obtain ⟨taken, following, counted, within, split, after⟩ := reads.stands
        rw [if_pos loaded] at counted
        have whole : (page it.locator).1.length ≤ taken := by
          rw [buffer, counted] at before
          exact Int.ofNat_le.mp (Int.not_lt.mp before)
        rw [List.drop_eq_nil_of_le whole, List.nil_append] at split
        rw [← next] at after
        subst split
        by_cases last : it.next = ""
        · rw [last] at after
          have empty := after.eq_nil
          subst empty
          unfold sfLoad
          rw [if_neg used, if_pos ⟨loaded, last⟩]
          exact .done rfl reads.marks
        · obtain ⟨fewer, later, rfl, split, tail⟩ := after.exists_page last
          have turned : it.turned = { it with locator := it.next, skip := 0 } := by
            unfold SfIter.turned
            rw [if_pos loaded]
          have fresh : it.turned.skip = 0 := by rw [turned]
          have stands : Stands page fewer it.turned.locator it.turned.skip rest := by
            rw [turned]
            exact ⟨0, later, rfl, Nat.zero_le _, split, tail⟩
          have inPage : it.turned.skip ≤ (page it.turned.locator).1.length := by
            rw [fresh]
            exact Int.natCast_nonneg _
          have served : service.Answers (it.holding (page it.turned.locator)).jobID page := by
            rw [holding_jobID]
            exact serves
          have tail := ih served (holding_reads stands) rfl (Nat.lt_of_succ_lt_succ enough)
          exact (sfLoad_turn serves used (fun both => last both.2) inPage tail).succ

theorem sfLoad_reads {fuel : Nat}
    (serves : service.Answers it.jobID page)
    (reads : it.Reads page limit rest) (enough : limit + 1 < fuel) :
    SfLoaded page limit service it rest (sfLoad service fuel it).1 := by
  cases loaded : it.loaded with
  | true => exact sfLoad_held serves reads loaded (Nat.lt_of_succ_lt enough)
  | false =>
      cases fuel with
      | zero => exact absurd enough (Nat.not_lt_zero _)
      | succ fuel =>
          have turned : it.turned = it := by
            unfold SfIter.turned
            rw [if_neg (Bool.eq_false_iff.mp loaded)]
          have stands : Stands page limit it.turned.locator it.turned.skip rest := by
            have found := reads.stands
            rw [if_neg (Bool.eq_false_iff.mp loaded)] at found
            rw [turned]
            exact found
          obtain ⟨taken, following, counted, within, _⟩ := id stands
          have inPage : it.turned.skip ≤ (page it.turned.locator).1.length := by
            rw [counted]
            exact Int.ofNat_le.mpr within
          have served : service.Answers (it.holding (page it.turned.locator)).jobID page := by
            rw [holding_jobID]
            exact serves
          have fresh : ¬it.loaded = true := Bool.eq_false_iff.mp loaded
          have tail := sfLoad_held served (holding_reads stands) rfl (Nat.lt_of_succ_lt_succ enough)
          exact sfLoad_turn serves (fun both => fresh both.1) (fun both => fresh both.1) inPage tail

theorem sfPoll_cases (service : SfService) (it : SfIter) :
    (∃ message, (sfPoll service it).1 = .error (.other message) ∧ ¬service.Up) ∨
      ((sfPoll service it).1 = .error .notReady ∧ it.ready = false) ∨
      (sfPoll service it).1 = .ok { it with ready := true } := by
  unfold sfPoll
  by_cases ready : it.ready = true
  · rw [if_pos ready, ← ready]
    exact .inr (.inr rfl)
  · rw [if_neg ready]
    cases polled : service.jobState it.jobID with
    | error message =>
        refine .inl ⟨message, rfl, fun up => ?_⟩
        obtain ⟨state, returned, _⟩ := up.state it.jobID
        rw [polled] at returned
        cases returned
    | ok state =>
        simp only
        split
        · exact .inr (.inr rfl)
        · split
          · rename_i lost
            refine .inl ⟨_, rfl, fun up => ?_⟩
            obtain ⟨found, returned, running, kept⟩ := up.state it.jobID
            rw [polled] at returned
            cases returned
            exact lost.elim running kept
          · exact .inr (.inl ⟨rfl, Bool.eq_false_iff.mpr ready⟩)

theorem sfNext_fst (service : SfService) (fuel : Nat) (it : SfIter) :
    (sfNext service fuel it).1 =
      match (sfPoll service it).1 with
      | .error err => .failed it.offset err
      | .ok polled =>
          match (sfLoad service fuel polled).1 with
          | .error result => result
          | .ok later => later.take := by
  unfold sfNext
  rcases sfPoll service it with ⟨_ | polled, asked⟩
  · rfl
  · simp only
    rcases sfLoad service fuel polled with ⟨_ | later, fetched⟩
    · rfl
    · rfl

private theorem take_reads {later : SfIter} (reads : later.Reads page limit rest)
    (loaded : later.loaded = true) (before : later.cursor < later.buffered.length)
    (job : later.jobID = it.jobID) (idx : later.idx = it.idx) (ready : later.ready = true) :
    SfStepped page limit service it rest later.take := by
  obtain ⟨buffer, next⟩ := reads.held loaded
  obtain ⟨taken, following, counted, within, split, after⟩ := reads.stands
  rw [if_pos loaded] at counted
  have inside : taken < (page later.locator).1.length := by
    rw [buffer, counted] at before
    exact Int.ofNat_lt.mp before
  have found : (if later.cursor < 0 then none else later.buffered[later.cursor.toNat]?) =
      some (page later.locator).1[taken] := by
    have below : ¬Int.ofNat taken < 0 := Int.not_lt.mpr (Int.natCast_nonneg taken)
    rw [counted, if_neg below, buffer]
    exact List.getElem?_eq_getElem inside
  unfold SfIter.take
  rw [found, idx]
  have moved : SfIter.Reads page limit
      { later with cursor := later.cursor + 1, idx := it.idx + 1 }
      ((page later.locator).1.drop (taken + 1) ++ following) := by
    refine ⟨⟨taken + 1, following, ?_, inside, rfl, after⟩, fun _ => ⟨buffer, next⟩⟩
    rw [if_pos loaded, counted]
    rfl
  refine .row ?_ moved job rfl ready ⟨moved.marks.items, moved.marks.job.trans job, moved.marks.stands⟩
  rw [split, List.drop_eq_getElem_cons inside, List.cons_append]

theorem sfNext_reads {fuel : Nat} (serves : service.Answers it.jobID page)
    (reads : it.Reads page limit rest) (enough : limit + 1 < fuel) :
    SfStepped page limit service it rest (sfNext service fuel it).1 := by
  rw [sfNext_fst]
  rcases sfPoll_cases service it with ⟨message, polled, down⟩ | ⟨polled, waits⟩ | polled
  · rw [polled]
    exact .failed down
  · rw [polled]
    exact .pending waits reads.marks
  · rw [polled]
    have loaded := @sfLoad_reads page limit { it with ready := true } rest service fuel serves
      ⟨reads.stands, reads.held⟩ enough
    simp only
    revert loaded
    generalize (sfLoad service fuel { it with ready := true }).1 = result
    intro loaded
    cases loaded with
    | row reads loaded before job idx ready => exact take_reads reads loaded before job idx ready
    | done empty marks => exact .done empty marks
    | failed down => exact .failed down

end Iterator

/-! ### One call -/

/-- What a call of `Ingest` does at a position; only an answered one moves it,
and one that meets a service that is up is answered. -/
inductive SfBatch (page : String → List Data × String) (limit : Nat) (up : Prop) (job : String)
    (idx : Int) (rest : List Data) (size : Nat) (before : IngestOutput) :
    IngestOutput × Option IngestError → Prop
  | failed {out : IngestOutput} {err : IngestError} (down : ¬up) :
      SfBatch page limit up job idx rest size before (out, some err)
  | pending {out : IngestOutput} (waits : out.pending = true) (unfinished : out.done = false)
      (first : before.rows = []) (empty : out.rows = [])
      (marks : Marks page limit job idx rest out.newOffset) :
      SfBatch page limit up job idx rest size before (out, none)
  | full {out : IngestOutput} (ready : out.pending = false) (unfinished : out.done = false)
      (within : size ≤ rest.length) (rows : out.rows = before.rows ++ numbered idx (rest.take size))
      (marks : Marks page limit job (idx + size) (rest.drop size) out.newOffset) :
      SfBatch page limit up job idx rest size before (out, none)
  | done {out : IngestOutput} (ready : out.pending = false) (finished : out.done = true)
      (within : rest.length < size) (rows : out.rows = before.rows ++ numbered idx rest)
      (named : out.newOffset.salesforceJobID = job) :
      SfBatch page limit up job idx rest size before (out, none)

section Batches

variable {page : String → List Data × String} {limit fuel : Nat} {service : SfService} {up : Prop}

theorem SfBatch.cons {job : String} {idx : Int} {data : Data} {tail : List Data} {left : Nat}
    {out : IngestOutput} {offset : Offset} {result : IngestOutput × Option IngestError}
    (batch : SfBatch page limit up job (idx + 1) tail left
      { out with rows := out.rows ++ [{ index := idx, data := data }], newOffset := offset }
      result) :
    SfBatch page limit up job idx (data :: tail) (left + 1) out result := by
  cases batch with
  | failed down => exact .failed down
  | pending waits unfinished first empty marks =>
      exact absurd first (List.append_ne_nil_of_right_ne_nil _ (List.cons_ne_nil _ _))
  | full ready unfinished within rows marks =>
      refine .full ready unfinished (Nat.succ_le_succ within) ?_ ?_
      · rw [rows]
        exact List.append_assoc _ _ _
      · rw [Int.natCast_succ, ← Int.add_assoc, Int.add_right_comm]
        exact marks
  | done ready finished within rows named =>
      refine .done ready finished (Nat.succ_lt_succ within) ?_ named
      rw [rows]
      exact List.append_assoc _ _ _

theorem ingestLoop_sf (enough : limit + 1 < fuel) (isUp : up → service.Up) (left : Nat)
    (it : SfIter) (rest : List Data) (out : IngestOutput)
    (serves : service.Answers it.jobID page) (reads : it.Reads page limit rest)
    (ready : out.pending = false) (unfinished : out.done = false)
    (polled : out.rows ≠ [] → it.ready = true)
    (atOnce : left = 0 → Marks page limit it.jobID it.idx rest out.newOffset) :
    SfBatch page limit up it.jobID it.idx rest left out
      (ingestLoop (fun it => (sfNext service fuel it).1) left it out) := by
  induction left generalizing it rest out with
  | zero =>
      refine .full ready unfinished (Nat.zero_le _) (List.append_nil _).symm ?_
      rw [Int.natCast_zero, Int.add_zero]
      exact atOnce rfl
  | succ left ih =>
      have stepped := sfNext_reads serves reads enough
      unfold ingestLoop
      revert stepped
      generalize (sfNext service fuel it).1 = result
      intro stepped
      cases stepped with
      | failed down => exact .failed (fun holds => down (isUp holds))
      | pending waits marks =>
          -- Only the first `Next` of a call polls, so no row was read before it.
          have first : out.rows = [] := by
            cases before : out.rows with
            | nil => rfl
            | cons row rows =>
                rw [polled (by rw [before]; exact List.cons_ne_nil row rows)] at waits
                cases waits
          have empty : out.rows.isEmpty = true := List.isEmpty_iff.mpr first
          simp only [empty, and_self, if_true]
          exact .pending rfl unfinished first first marks
      | done empty marks =>
          subst empty
          exact .done ready rfl (Nat.zero_lt_succ _) (List.append_nil _).symm marks.job
      | @row data tail offset later first moved job idx done marks =>
          subst first
          have batch := ih later tail
            { out with rows := out.rows ++ [{ index := it.idx, data := data }], newOffset := offset }
            (by rw [job]; exact serves) moved ready unfinished (fun _ => done)
            (fun _ => by rw [job, idx]; exact marks)
          rw [job, idx] at batch
          exact batch.cons

theorem sfLoad_requests (service : SfService) (fuel : Nat) (it : SfIter) :
    ∀ request ∈ (sfLoad service fuel it).2, request.IsOf it.jobID := by
  induction fuel generalizing it with
  | zero =>
      intro request member
      cases member
  | succ fuel ih =>
      intro request member
      unfold sfLoad at member
      split at member
      · cases member
      · split at member
        · cases member
        · split at member
          · rw [List.mem_singleton.mp member]
            rfl
          · rename_i found _
            split at member
            · rw [List.mem_singleton.mp member]
              rfl
            · rcases List.mem_cons.mp member with same | later
              · rw [same]
                rfl
              · have asked := ih (it.holding found) request later
                rw [holding_jobID] at asked
                exact asked

private theorem sfPoll_requests (service : SfService) (it : SfIter) :
    ∀ request ∈ (sfPoll service it).2, request.IsOf it.jobID := by
  have polled : (sfPoll service it).2 = [] ∨ (sfPoll service it).2 = [.state it.jobID] := by
    unfold sfPoll
    split
    · exact .inl rfl
    · split
      · exact .inr rfl
      · split
        · exact .inr rfl
        · split
          · exact .inr rfl
          · exact .inr rfl
  intro request member
  rcases polled with silent | asked
  · rw [silent] at member
    cases member
  · rw [asked] at member
    rw [List.mem_singleton.mp member]
    rfl

theorem sfNext_requests (service : SfService) (fuel : Nat) (it : SfIter) :
    ∀ request ∈ (sfNext service fuel it).2, request.IsOf it.jobID := by
  intro request member
  have asked := sfPoll_requests service it request
  have kept := sfPoll_cases service it
  unfold sfNext at member
  rcases polled : sfPoll service it with ⟨_ | ready, first⟩
  · rw [polled] at member asked
    exact asked member
  · rw [polled] at member asked kept
    have same : ready.jobID = it.jobID := by
      rcases kept with ⟨message, refused, _⟩ | ⟨refused, _⟩ | done
      · cases refused
      · cases refused
      · cases done
        rfl
    have fetched := sfLoad_requests service fuel ready request
    rw [same] at fetched
    have split : request ∈ first ++ (sfLoad service fuel ready).2 := by
      simp only at member
      rcases loaded : sfLoad service fuel ready with ⟨_ | later, pages⟩
      · rw [loaded] at member
        exact member
      · rw [loaded] at member
        exact member
    rcases List.mem_append.mp split with early | late
    · exact asked early
    · exact fetched late

private theorem sfLoopRequests_of (enough : limit + 1 < fuel) (left : Nat) (it : SfIter)
    (rest : List Data) (serves : service.Answers it.jobID page)
    (reads : it.Reads page limit rest) :
    ∀ request ∈ sfLoopRequests service fuel left it, request.IsOf it.jobID := by
  induction left generalizing it rest with
  | zero =>
      intro request member
      cases member
  | succ left ih =>
      intro request member
      unfold sfLoopRequests at member
      rcases List.mem_append.mp member with now | later
      · exact sfNext_requests service fuel it request now
      · have stepped := sfNext_reads serves reads enough
        revert stepped later
        generalize (sfNext service fuel it).1 = result
        intro later stepped
        cases stepped with
        | row first moved job idx marks =>
            have asked := ih _ _ (by rw [job]; exact serves) moved request later
            rw [job] at asked
            exact asked
        | done => cases later
        | pending => cases later
        | failed => cases later

end Batches

section Calls

variable {cfg : SfConfig} {limit fuel : Nat} {call : SfCall} {offset : Offset}
variable {page : String → String → List Data × String} {pages : String → List (List Data)}

def SfCall.IsUp (cfg : SfConfig) (call : SfCall) : Prop := cfg.Complete ∧ call.service.Up

theorem sfOpen_marked {job : String} {idx : Int} {rest : List Data}
    (named : job ≠ "") (marks : Marks (page job) limit job idx rest offset) :
    (∃ message requests, sfOpen cfg call.service offset = (.error (.other message), requests) ∧
      ¬call.IsUp cfg ∧ ∀ request ∈ requests, request.IsOf job) ∨
    ∃ it, sfOpen cfg call.service offset = (.ok it, [.token]) ∧ it.jobID = job ∧ it.idx = idx ∧
      it.Reads (page job) limit rest := by
  have hasJob : offset.salesforceJobID ≠ "" := by
    rw [marks.job]
    exact named
  unfold sfOpen
  split
  · rename_i noQuery
    exact .inl ⟨_, _, rfl, fun isUp => isUp.1.1 noQuery, fun request member => by cases member⟩
  · split
    · rename_i noToken
      exact .inl ⟨_, _, rfl, fun isUp => isUp.1.2 noToken, fun request member => by cases member⟩
    · cases granted : call.service.oAuthToken with
      | error message =>
          refine .inl ⟨message, _, rfl, ?_, ?_⟩
          · intro isUp
            obtain ⟨token, returned⟩ := isUp.2.token
            rw [granted] at returned
            cases returned
          · intro request member
            rw [List.mem_singleton.mp member]
            trivial
      | ok token =>
          refine .inr ⟨{ SfIter.ofOffset offset with ready := decide offset.SfStarted },
            rfl, marks.job, marks.items, marks.stands, ?_⟩
          intro loaded
          cases loaded

theorem sfOpen_first (serves : call.service.Serves page pages)
    (short : ∀ job, (pages job).length ≤ limit + 1) :
    (∃ message, (sfOpen cfg call.service {}).1 = .error (.other message) ∧ ¬call.IsUp cfg) ∨
    ∃ it, (sfOpen cfg call.service {}).1 = .ok it ∧ it.jobID ≠ "" ∧ it.idx = 0 ∧
      it.Reads (page it.jobID) limit (pages it.jobID).flatten := by
  unfold sfOpen
  split
  · rename_i noQuery
    exact .inl ⟨_, rfl, fun isUp => isUp.1.1 noQuery⟩
  · split
    · rename_i noToken
      exact .inl ⟨_, rfl, fun isUp => isUp.1.2 noToken⟩
    · cases granted : call.service.oAuthToken with
      | error message =>
          refine .inl ⟨message, rfl, fun isUp => ?_⟩
          obtain ⟨token, returned⟩ := isUp.2.token
          rw [granted] at returned
          cases returned
      | ok token =>
          have fresh : ¬({} : Offset).SfStarted := by decide
          simp only [if_true, if_neg fresh]
          cases created : call.service.createQueryJob cfg.query with
          | error message =>
              refine .inl ⟨message, rfl, fun isUp => ?_⟩
              obtain ⟨job, returned⟩ := isUp.2.create cfg.query
              rw [created] at returned
              cases returned
          | ok job =>
              obtain ⟨named, paged⟩ := serves.created _ _ created
              refine .inr ⟨_, rfl, named, rfl, paged.stands (short job), ?_⟩
              intro loaded
              cases loaded

theorem batchLimit_pos (size : Int) : batchLimit size ≠ 0 := by
  unfold batchLimit
  split
  · decide
  · omega

theorem ingest_opened {it : SfIter} {rest : List Data}
    (opened : (sfOpen cfg call.service offset).1 = .ok it) (enough : limit + 1 < fuel)
    (serves : call.service.Answers it.jobID (page it.jobID))
    (reads : it.Reads (page it.jobID) limit rest) :
    SfBatch (page it.jobID) limit (call.IsUp cfg) it.jobID it.idx rest (batchLimit call.batchSize)
      { newOffset := offset }
      ((sfRead cfg fuel offset call).output, (sfRead cfg fuel offset call).err) := by
  have batch := @ingestLoop_sf (page it.jobID) limit fuel call.service (call.IsUp cfg) enough
    And.right (batchLimit call.batchSize) it rest { newOffset := offset, sourceVersion := "" }
    serves reads rfl rfl (fun some => absurd rfl some)
    (fun empty => absurd empty (batchLimit_pos _))
  have same : ingest (sfConnector cfg call.service fuel) offset call.batchSize =
      ingestLoop (fun it => (sfNext call.service fuel it).1) (batchLimit call.batchSize) it
        { newOffset := offset, sourceVersion := "" } := by
    unfold ingest
    have opens : (sfConnector cfg call.service fuel).openAt offset = .ok it := opened
    rw [opens]
    rfl
  rw [← same] at batch
  exact batch

private theorem sfRead_opened {it : SfIter} {requests : List SfRequest}
    (opened : sfOpen cfg call.service offset = (.ok it, requests)) :
    (sfRead cfg fuel offset call).requests =
      requests ++ sfLoopRequests call.service fuel (batchLimit call.batchSize) it := by
  change sfRequests cfg call.service fuel offset call.batchSize = _
  unfold sfRequests
  rw [opened]

theorem sfRead_refused {err : SourceError} {requests : List SfRequest}
    (refused : sfOpen cfg call.service offset = (.error err, requests)) :
    (sfRead cfg fuel offset call).err = some err.ingestError ∧
      (sfRead cfg fuel offset call).requests = requests := by
  have opens : (sfConnector cfg call.service fuel).openAt offset = .error err :=
    congrArg Prod.fst refused
  constructor
  · change (ingest (sfConnector cfg call.service fuel) offset call.batchSize).2 = _
    unfold ingest
    rw [opens]
  · change sfRequests cfg call.service fuel offset call.batchSize = _
    unfold sfRequests
    rw [refused]
    exact List.append_nil _

private theorem sfRead_marked {job : String} {idx : Int} {rest : List Data} (named : job ≠ "")
    (marks : Marks (page job) limit job idx rest offset) (enough : limit + 1 < fuel)
    (serves : call.service.Serves page pages) :
    SfBatch (page job) limit (call.IsUp cfg) job idx rest (batchLimit call.batchSize)
        { newOffset := offset }
        ((sfRead cfg fuel offset call).output, (sfRead cfg fuel offset call).err) ∧
      ∀ request ∈ (sfRead cfg fuel offset call).requests, request.IsOf job := by
  rcases @sfOpen_marked cfg limit call offset page job idx rest named marks with
    ⟨message, requests, refused, down, asked⟩ | ⟨it, opened, rfl, rfl, reads⟩
  · obtain ⟨failed, made⟩ := @sfRead_refused cfg fuel call offset _ _ refused
    rw [failed, made]
    exact ⟨.failed down, asked⟩
  · have answers : call.service.Answers it.jobID (page it.jobID) := serves.results it.jobID
    refine ⟨ingest_opened (congrArg Prod.fst opened) enough answers reads, ?_⟩
    rw [sfRead_opened opened]
    intro request member
    rcases List.mem_cons.mp member with same | later
    · rw [same]
      trivial
    · exact sfLoopRequests_of enough _ it rest answers reads request later

private theorem sfRead_first (enough : limit + 1 < fuel) (serves : call.service.Serves page pages)
    (short : ∀ job, (pages job).length ≤ limit + 1) :
    (¬(sfRead cfg fuel {} call).Answered ∧ ¬call.IsUp cfg) ∨
      ∃ job, job ≠ "" ∧
        SfBatch (page job) limit (call.IsUp cfg) job 0 (pages job).flatten
          (batchLimit call.batchSize) {}
          ((sfRead cfg fuel {} call).output, (sfRead cfg fuel {} call).err) := by
  rcases @sfOpen_first cfg limit call page pages serves short with
    ⟨message, refused, down⟩ | ⟨it, opened, named, first, reads⟩
  · obtain ⟨failed, _⟩ := @sfRead_refused cfg fuel call {} _ _ (Prod.ext refused rfl)
    refine .inl ⟨fun answered => ?_, down⟩
    rw [answered] at failed
    cases failed
  · have batch := @ingest_opened cfg limit fuel call {} page it _ opened enough
      (serves.results it.jobID) reads
    rw [first] at batch
    exact .inr ⟨it.jobID, named, batch⟩

end Calls

/-! ### Repeated calls -/

/-- Calls deliver the rows in their order, numbered from an index on, as many as
the calls that read asked for, and report the end when more were asked for. -/
structure SfOnePass (job : String) (idx : Int) (rest : List Data) (reads : List SfRead) :
    Prop where
  rows : reads.flatMap SfRead.delivered = numbered idx (rest.take (sfAsked reads))
  finished : sfFinished reads ↔ rest.length < sfAsked reads
  jobs : ∀ read ∈ reads, read.Answered → read.output.newOffset.salesforceJobID = job

section Runs

variable {cfg : SfConfig} {limit fuel : Nat} {job : String} {idx : Int} {rest : List Data}
variable {read : SfRead} {reads : List SfRead}

private theorem numbered_append (idx : Int) (left right : List Data) :
    numbered idx (left ++ right) = numbered idx left ++ numbered (idx + left.length) right := by
  induction left generalizing idx with
  | nil =>
      rw [List.length_nil, Int.natCast_zero, Int.add_zero]
      rfl
  | cons data left ih =>
      change _ :: numbered (idx + 1) (left ++ right) = _
      rw [ih, List.length_cons, Int.natCast_succ, Int.add_assoc, Int.add_comm 1]
      rfl

theorem SfOnePass.nil : SfOnePass job idx rest [] := by
  refine ⟨rfl, ?_, fun read member => by cases member⟩
  constructor
  · rintro ⟨read, member, _⟩
    cases member
  · intro fewer
    exact absurd fewer (Nat.not_lt_zero _)

theorem sfFinished_cons :
    sfFinished (read :: reads) ↔ (read.Answered ∧ read.output.done = true) ∨ sfFinished reads := by
  unfold sfFinished
  constructor
  · rintro ⟨found, member, ended⟩
    rcases List.mem_cons.mp member with rfl | later
    · exact .inl ended
    · exact .inr ⟨found, later, ended⟩
  · rintro (ended | ⟨found, member, ended⟩)
    · exact ⟨read, List.mem_cons_self, ended⟩
    · exact ⟨found, List.mem_cons_of_mem _ member, ended⟩

theorem SfOnePass.cons (tail : SfOnePass job (idx + read.asked) (rest.drop read.asked) reads)
    (within : read.asked ≤ rest.length)
    (rows : read.delivered = numbered idx (rest.take read.asked))
    (unfinished : ¬(read.Answered ∧ read.output.done = true))
    (named : read.Answered → read.output.newOffset.salesforceJobID = job) :
    SfOnePass job idx rest (read :: reads) := by
  have taken : (rest.take read.asked).length = read.asked := List.length_take_of_le within
  refine ⟨?_, ?_, ?_⟩
  · change _ = numbered idx (rest.take (read.asked + sfAsked reads))
    rw [List.flatMap_cons, rows, tail.rows, List.take_add, numbered_append, taken]
  · have left : rest.length - read.asked < sfAsked reads ↔
        rest.length < read.asked + sfAsked reads := by omega
    have later := tail.finished
    rw [List.length_drop] at later
    change _ ↔ rest.length < read.asked + sfAsked reads
    rw [sfFinished_cons, or_iff_right unfinished, later, left]
  · intro found member answered
    rcases List.mem_cons.mp member with rfl | later
    · exact named answered
    · exact tail.jobs found later answered

theorem SfOnePass.single (ended : read.Answered ∧ read.output.done = true)
    (within : rest.length < read.asked) (rows : read.delivered = numbered idx rest)
    (named : read.output.newOffset.salesforceJobID = job) :
    SfOnePass job idx rest [read] := by
  have asked : sfAsked [read] = read.asked := Nat.add_zero _
  refine ⟨?_, ?_, ?_⟩
  · rw [asked, List.flatMap_cons, List.flatMap_nil, List.append_nil, rows,
      List.take_of_length_le (Nat.le_of_lt within)]
  · rw [asked, sfFinished_cons]
    exact ⟨fun _ => within, fun _ => .inl ended⟩
  · intro found member _
    rw [List.mem_singleton.mp member]
    exact named

structure SfRead.Continues (page : String → List Data × String) (limit : Nat) (job : String)
    (idx : Int) (rest : List Data) (read : SfRead) : Prop where
  unfinished : ¬(read.Answered ∧ read.output.done = true)
  within : read.asked ≤ rest.length
  rows : read.delivered = numbered idx (rest.take read.asked)
  marks : read.Answered →
    Marks page limit job (idx + read.asked) (rest.drop read.asked) read.output.newOffset

theorem asked_of_failed (failed : ¬read.Answered) : read.asked = 0 :=
  if_neg (fun both => failed both.1)

theorem delivered_of_failed (failed : ¬read.Answered) : read.delivered = [] := if_neg failed

section Moves

variable {page : String → List Data × String} {up : Prop}

theorem SfRead.Continues.of_failed (failed : ¬read.Answered) :
    read.Continues page limit job idx rest := by
  have none := asked_of_failed failed
  refine ⟨fun both => failed both.1, ?_, ?_, fun answered => absurd answered failed⟩
  · rw [none]
    exact Nat.zero_le _
  · rw [none, delivered_of_failed failed]
    rfl

theorem SfBatch.moves (read : SfRead) {before : IngestOutput} (fresh : before.rows = [])
    (batch : SfBatch page limit up job idx rest (batchLimit read.call.batchSize) before
      (read.output, read.err)) :
    read.Continues page limit job idx rest ∨
      (read.Answered ∧ read.output.done = true) ∧ rest.length < read.asked ∧
        read.delivered = numbered idx rest ∧ read.output.newOffset.salesforceJobID = job := by
  generalize result : (read.output, read.err) = made at batch
  cases batch with
  | failed =>
      injection result with _ failed
      have refused : ¬read.Answered := by
        unfold SfRead.Answered
        rw [failed]
        exact Option.some_ne_none _
      exact .inl (.of_failed refused)
  | pending waits unfinished first empty marks =>
      injection result with sameOutput answered
      subst sameOutput
      have none : read.asked = 0 := if_neg (fun both => Bool.eq_false_iff.mp both.2 waits)
      have nothing : read.delivered = [] := (if_pos answered).trans empty
      refine .inl ⟨fun both => Bool.eq_false_iff.mp unfinished both.2, ?_, ?_, ?_⟩
      · rw [none]
        exact Nat.zero_le _
      · rw [none, nothing]
        rfl
      · rw [none, Int.natCast_zero, Int.add_zero]
        exact fun _ => marks
  | full ready unfinished within rows marks =>
      injection result with sameOutput answered
      subst sameOutput
      have asked : read.asked = batchLimit read.call.batchSize := if_pos ⟨answered, ready⟩
      have moved : read.delivered = read.output.rows := if_pos answered
      rw [fresh, List.nil_append] at rows
      rw [← asked] at within rows marks
      exact .inl ⟨fun both => Bool.eq_false_iff.mp unfinished both.2, within, moved.trans rows,
        fun _ => marks⟩
  | done ready finished within rows named =>
      injection result with sameOutput answered
      subst sameOutput
      have asked : read.asked = batchLimit read.call.batchSize := if_pos ⟨answered, ready⟩
      have moved : read.delivered = read.output.rows := if_pos answered
      rw [fresh, List.nil_append] at rows
      rw [← asked] at within
      exact .inr ⟨⟨answered, finished⟩, within, moved.trans rows, named⟩

theorem SfBatch.answered (read : SfRead) {size : Nat} {before : IngestOutput}
    (batch : SfBatch page limit up job idx rest size before (read.output, read.err))
    (isUp : up) : read.Answered := by
  generalize result : (read.output, read.err) = made at batch
  cases batch with
  | failed down => exact absurd isUp down
  | pending => exact congrArg Prod.snd result
  | full => exact congrArg Prod.snd result
  | done => exact congrArg Prod.snd result

theorem SfRead.Continues.resumes (moved : read.Continues page limit job idx rest)
    (marks : Marks page limit job idx rest read.offset) :
    Marks page limit job (idx + read.asked) (rest.drop read.asked) read.resumeAt := by
  unfold SfRead.resumeAt
  by_cases answered : read.Answered
  · rw [if_pos answered]
    exact moved.marks answered
  · rw [if_neg answered, asked_of_failed answered, Int.natCast_zero, Int.add_zero]
    exact marks

end Moves

theorem sfReads_goes {offset : Offset} {call : SfCall} {calls : List SfCall}
    (goes : ¬((sfRead cfg fuel offset call).Answered ∧
      (sfRead cfg fuel offset call).output.done = true)) :
    sfReads cfg fuel offset (call :: calls) = sfRead cfg fuel offset call ::
      sfReads cfg fuel (sfRead cfg fuel offset call).resumeAt calls :=
  if_neg goes

theorem sfReads_ends {offset : Offset} {call : SfCall} {calls : List SfCall}
    (ended : (sfRead cfg fuel offset call).Answered ∧
      (sfRead cfg fuel offset call).output.done = true) :
    sfReads cfg fuel offset (call :: calls) = [sfRead cfg fuel offset call] :=
  if_pos ended

variable {page : String → String → List Data × String} {pages : String → List (List Data)}

theorem sfReads_marked (named : job ≠ "") (enough : limit + 1 < fuel) (calls : List SfCall)
    (serves : ∀ call ∈ calls, call.service.Serves page pages) {offset : Offset}
    (marks : Marks (page job) limit job idx rest offset) :
    SfOnePass job idx rest (sfReads cfg fuel offset calls) ∧
      ∀ read ∈ sfReads cfg fuel offset calls, (read.call.IsUp cfg → read.Answered) ∧
        ∀ request ∈ read.requests, request.IsOf job := by
  induction calls generalizing idx rest offset with
  | nil => exact ⟨.nil, fun read member => by cases member⟩
  | cons call calls ih =>
      obtain ⟨batch, asked⟩ := @sfRead_marked cfg limit fuel call offset page pages job idx rest
        named marks enough (serves call List.mem_cons_self)
      have answers := SfBatch.answered (sfRead cfg fuel offset call) batch
      rcases SfBatch.moves (sfRead cfg fuel offset call) rfl batch with
        moved | ⟨ended, within, rows, last⟩
      · obtain ⟨tail, later⟩ :=
          ih (fun other member => serves other (List.mem_cons_of_mem _ member))
            (moved.resumes marks)
        rw [sfReads_goes moved.unfinished]
        refine ⟨tail.cons moved.within moved.rows moved.unfinished
          (fun answered => (moved.marks answered).job), ?_⟩
        intro read member
        rcases List.mem_cons.mp member with rfl | behind
        · exact ⟨answers, asked⟩
        · exact later read behind
      · rw [sfReads_ends ended]
        refine ⟨.single ended within rows last, ?_⟩
        intro read member
        rw [List.mem_singleton.mp member]
        exact ⟨answers, asked⟩

theorem sfReads_first (enough : limit + 1 < fuel)
    (short : ∀ job, (pages job).length ≤ limit + 1) (calls : List SfCall)
    (serves : ∀ call ∈ calls, call.service.Serves page pages) :
    ∃ job, SfOnePass job 0 (pages job).flatten (sfReads cfg fuel {} calls) ∧
      (∀ read ∈ sfReads cfg fuel {} calls, read.call.IsUp cfg → read.Answered) ∧
      (sfReads cfg fuel {} calls).Pairwise (fun earlier later => earlier.Answered →
        ∀ request ∈ later.requests, request.IsOf job) := by
  induction calls with
  | nil => exact ⟨"", .nil, (fun read member => by cases member), .nil⟩
  | cons call calls ih =>
      have others : ∀ other ∈ calls, other.service.Serves page pages :=
        fun other member => serves other (List.mem_cons_of_mem _ member)
      have first := @sfRead_first cfg limit fuel call page pages enough
        (serves call List.mem_cons_self) short
      by_cases answered : (sfRead cfg fuel {} call).Answered
      · obtain ⟨job, named, batch⟩ := first.resolve_left (fun failed => failed.1 answered)
        rcases SfBatch.moves (sfRead cfg fuel {} call) rfl batch with
          moved | ⟨ended, within, rows, last⟩
        · have marks := moved.marks answered
          have next : (sfRead cfg fuel {} call).resumeAt =
              (sfRead cfg fuel {} call).output.newOffset := if_pos answered
          obtain ⟨tail, later⟩ := sfReads_marked named enough calls others marks
          rw [sfReads_goes moved.unfinished, next]
          refine ⟨job, tail.cons moved.within moved.rows moved.unfinished (fun _ => marks.job),
            ?_, List.Pairwise.cons (fun read member _ => (later read member).2) ?_⟩
          · intro read member isUp
            rcases List.mem_cons.mp member with rfl | behind
            · exact answered
            · exact (later read behind).1 isUp
          · exact List.pairwise_of_forall_mem_list
              (fun _ _ read member _ => (later read member).2)
        · rw [sfReads_ends ended]
          refine ⟨job, .single ended within rows last, ?_, List.pairwise_singleton _ _⟩
          intro read member _
          rw [List.mem_singleton.mp member]
          exact answered
      · have down : ¬call.IsUp cfg := by
          rcases first with failed | ⟨job, named, batch⟩
          · exact failed.2
          · exact fun isUp => answered (SfBatch.answered (sfRead cfg fuel {} call) batch isUp)
        obtain ⟨job, tail, answers, apart⟩ := ih others
        have moved : (sfRead cfg fuel {} call).Continues (page job) limit job 0
            (pages job).flatten := .of_failed answered
        have next : (sfRead cfg fuel {} call).resumeAt = {} := if_neg answered
        rw [sfReads_goes moved.unfinished, next]
        refine ⟨job, SfOnePass.cons ?_ moved.within moved.rows moved.unfinished
          (fun replied => absurd replied answered), ?_,
          List.Pairwise.cons (fun read member replied => absurd replied answered) apart⟩
        · rw [asked_of_failed answered]
          exact tail
        · intro read member isUp
          rcases List.mem_cons.mp member with rfl | behind
          · exact absurd isUp down
          · exact answers read behind isUp

theorem SfOnePass.whole {all : List Data} (pass : SfOnePass job idx all reads)
    (finished : sfFinished reads) : reads.flatMap SfRead.delivered = numbered idx all := by
  have covered := Nat.le_of_lt (pass.finished.mp finished)
  rw [pass.rows, List.take_of_length_le covered]

end Runs

/-! ### Offsets that are refused -/

/-- An offset that names rows but no job, or more rows of a page than it has. -/
inductive SfService.Misplaced (service : SfService) (offset : Offset) : Prop
  | noJob (job : offset.salesforceJobID = "") (started : offset.SfStarted)
  | pastPage (found : List Data × String) (job : offset.salesforceJobID ≠ "")
      (returned : service.results offset.salesforceJobID offset.salesforceLocator = .ok found)
      (past : (found.1.length : Int) < offset.salesforceSkip)

section Refused

variable {cfg : SfConfig} {fuel : Nat} {call : SfCall} {offset : Offset} {token : String}

private theorem sfOpen_granted (complete : cfg.Complete)
    (granted : call.service.oAuthToken = .ok token)
    (job : offset.salesforceJobID ≠ "") :
    sfOpen cfg call.service offset =
      (.ok { SfIter.ofOffset offset with ready := decide offset.SfStarted }, [.token]) := by
  unfold sfOpen
  rw [if_neg complete.1, if_neg complete.2, granted]
  exact if_neg job

private theorem sfRead_without_job (complete : cfg.Complete)
    (granted : call.service.oAuthToken = .ok token) (job : offset.salesforceJobID = "")
    (started : offset.SfStarted) :
    ∃ message, (sfRead cfg fuel offset call).err = some (.invalidCheckpoint message) := by
  have refused : ∃ message, sfOpen cfg call.service offset =
      (.error (.invalidOffset message), [.token]) := by
    unfold sfOpen
    rw [if_neg complete.1, if_neg complete.2, granted]
    simp only [if_pos job, if_pos started]
    exact ⟨_, rfl⟩
  obtain ⟨message, refused⟩ := refused
  exact ⟨message, (sfRead_refused refused).1⟩

private theorem sfRead_past_page {found : List Data × String} (complete : cfg.Complete)
    (granted : call.service.oAuthToken = .ok token) (job : offset.salesforceJobID ≠ "")
    (returned : call.service.results offset.salesforceJobID offset.salesforceLocator = .ok found)
    (past : (found.1.length : Int) < offset.salesforceSkip) :
    ∃ message, (sfRead cfg (fuel + 1) offset call).err = some (.invalidCheckpoint message) := by
  have started : offset.SfStarted := .inr (.inr (Int.lt_of_le_of_lt (Int.natCast_nonneg _) past))
  have opened := sfOpen_granted complete granted job
  have failed : ∃ position message, (sfNext call.service (fuel + 1)
      { SfIter.ofOffset offset with ready := decide offset.SfStarted }).1 =
      .failed position (.invalidOffset message) := by
    rw [sfNext_fst]
    simp [sfPoll, sfLoad, SfIter.turned, SfIter.ofOffset, started, returned, past]
  obtain ⟨position, message, failed⟩ := failed
  have opens : (sfConnector cfg call.service (fuel + 1)).openAt offset =
      .ok { SfIter.ofOffset offset with ready := decide offset.SfStarted } :=
    congrArg Prod.fst opened
  refine ⟨message, ?_⟩
  change (ingest (sfConnector cfg call.service (fuel + 1)) offset call.batchSize).2 = _
  unfold ingest
  rw [opens]
  obtain ⟨left, size⟩ := Nat.exists_eq_succ_of_ne_zero (batchLimit_pos call.batchSize)
  simp only [size, Nat.succ_eq_add_one, ingestLoop, sfConnector, failed]
  rfl

end Refused

/-- Resumed calls are one pass over the pages of one query job. Calls from the
start of the source deliver the rows of the pages in order, numbered from zero,
as many as were asked for; only a call that meets a failure of the service fails;
behind the first answer every request is about the job it names; and an offset
that cannot be resumed is refused. -/
theorem salesforce_resume_is_one_pass (cfg : SfConfig) (turns : Nat) (calls : List SfCall)
    (page : String → String → List Data × String) (pages : String → List (List Data))
    (serves : ∀ call ∈ calls, call.service.Serves page pages)
    (enough : ∀ job, (pages job).length + 2 ≤ turns) :
    (∃ job, SfOnePass job 0 (pages job).flatten (sfReads cfg turns {} calls) ∧
      (sfFinished (sfReads cfg turns {} calls) →
        (sfReads cfg turns {} calls).flatMap SfRead.delivered =
          numbered 0 (pages job).flatten)) ∧
    (∀ read ∈ sfReads cfg turns {} calls, read.call.IsUp cfg → read.Answered) ∧
    (sfReads cfg turns {} calls).Pairwise (fun earlier later => earlier.Answered →
      ∀ request ∈ later.requests,
        request.IsOf earlier.output.newOffset.salesforceJobID) ∧
    ∀ call offset token, cfg.Complete → call.service.oAuthToken = .ok token →
      call.service.Misplaced offset →
      (sfRead cfg turns offset call).delivered = [] ∧
        ∃ message, (sfRead cfg turns offset call).err = some (.invalidCheckpoint message) := by
  obtain ⟨limit, rfl⟩ : ∃ limit, turns = limit + 2 :=
    ⟨turns - 2, by have := enough ""; omega⟩
  have short : ∀ job, (pages job).length ≤ limit + 1 := by
    intro job
    have := enough job
    omega
  obtain ⟨job, pass, answers, apart⟩ :=
    @sfReads_first cfg limit (limit + 2) page pages (by omega) short calls serves
  refine ⟨⟨job, pass, pass.whole⟩, answers, ?_, ?_⟩
  · apply apart.imp_of_mem
    intro earlier later member _ requests answered
    rw [pass.jobs earlier member answered]
    exact requests answered
  · intro call offset token complete granted misplaced
    have refused : ∃ message,
        (sfRead cfg (limit + 2) offset call).err = some (.invalidCheckpoint message) := by
      cases misplaced with
      | noJob job started => exact sfRead_without_job complete granted job started
      | pastPage found job returned past => exact sfRead_past_page complete granted job returned past
    obtain ⟨message, failed⟩ := refused
    refine ⟨delivered_of_failed (fun answered => ?_), message, failed⟩
    rw [answered] at failed
    cases failed

/-- Three pages, the one in the middle empty and the last one with locator "null". -/
def contactPage (_job locator : String) : List Data × String :=
  if locator = "" then ([[("Id", .text "a")], [("Id", .text "b")]], "L1")
  else if locator = "L1" then ([], "L2")
  else ([[("Id", .text "c")]], "null")

def contactPages (_job : String) : List (List Data) :=
  [[[("Id", .text "a")], [("Id", .text "b")]], [], [[("Id", .text "c")]]]

def contactService (state : String) : SfService where
  oAuthToken := .ok "token"
  createQueryJob := fun _ => .ok "J1"
  jobState := fun _ => .ok state
  results := fun job locator => .ok (contactPage job locator)

/-- A call that finds the job still running, one that uses up the first page, and
one that reads the rest. -/
def contactCalls : List SfCall :=
  [⟨contactService "InProgress", 500⟩, ⟨contactService "JobComplete", 2⟩,
    ⟨contactService "JobComplete", 2⟩]

theorem contactService_serves (state : String) :
    (contactService state).Serves contactPage contactPages := by
  refine ⟨?_, ?_⟩
  · intro job locator found returned
    cases returned
    rfl
  · intro soql job created
    cases created
    refine ⟨by decide, ?_⟩
    exact @Paging.more (contactPage "J1") "" _ (by decide)
      (@Paging.more (contactPage "J1") "L1" _ (by decide)
        (@Paging.last (contactPage "J1") "L2" (by decide)))

def contactConfig : SfConfig where
  soql := "SELECT Id FROM Contact"
  tokenUrl := "/services/oauth2/token"

theorem salesforce_resume_is_one_pass_contacts :
    (sfReads contactConfig 5 {} contactCalls).flatMap SfRead.delivered =
      numbered 0 [[("Id", .text "a")], [("Id", .text "b")], [("Id", .text "c")]] := by
  obtain ⟨⟨job, pass, whole⟩, _⟩ := salesforce_resume_is_one_pass
    contactConfig 5 contactCalls contactPage contactPages
    (by
      intro call member
      simp only [contactCalls, List.mem_cons, List.not_mem_nil, or_false] at member
      rcases member with rfl | rfl | rfl
      · exact contactService_serves _
      · exact contactService_serves _
      · exact contactService_serves _)
    (fun _ => Nat.le_refl 5)
  apply whole
  apply pass.finished.mpr
  change 3 < sfAsked (sfReads contactConfig 5 {} contactCalls)
  decide

end MigrationPlatform.Connectors
