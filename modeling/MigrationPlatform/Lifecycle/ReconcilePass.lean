/-
A pass of the reconciler over the stale jobs.

`Pass` pages through the jobs by their ids and reconciles each of a page in turn.
Before each statement of the pass the workflows may have changed any row; what
they do, what the workflow service answers and which statements fail is an
environment of the pass. The listings, the calls and the updates of a pass are
kept beside its variables.
-/

import MigrationPlatform.Lifecycle.JobStatus
import Mathlib.Data.List.Sort

namespace MigrationPlatform.Lifecycle

structure StoredJob where
  id : Int
  row : JobRow
  workflowID : Option String := none
  updatedAt : Int
deriving DecidableEq, Repr

/-- The rows of `jobs` by their ids, which a sequence has given out. -/
structure JobTable where
  jobs : List StoredJob
  ascending : (jobs.map StoredJob.id).Pairwise (· < ·)
  positive : ∀ job ∈ jobs, 0 < job.id

/-- A status that the service leaves out, or that the code does not know, is
`unspecified`. -/
inductive Described
  | notFound
  | failed (message : String)
  | found (status : WorkflowExecutionStatus)
deriving DecidableEq, Repr

/-- Statements are numbered; `lock` is what acquiring a connection and trying the
advisory lock ended in. A statement that fails has changed nothing. -/
structure PassEnv where
  lock : Except String Bool
  change : Nat → List StoredJob → List StoredJob
  keepsIDs : ∀ n jobs, (change n jobs).map StoredJob.id = jobs.map StoredJob.id
  describe : Nat → String → Described
  listFails : Nat → Option String
  fails : Nat → Option String
  cancelled : Nat → Bool
  now : Nat → Int
  counts : Nat → Int → Totals
  staleAfter : Int

structure StaleJob where
  id : Int
  status : JobStatus
  workflowID : String
deriving DecidableEq, Repr

structure Listing where
  after : Int
  now : Int
  jobs : List StoredJob

/-- An UPDATE that found its row, and the statement at which the service was asked. -/
structure JobUpdate where
  call : StaleJob
  asked : Nat
  before : List StoredJob
  after : List StoredJob

structure PassState where
  jobs : List StoredJob
  statement : Nat := 0
  after : Int := 0
  repaired : Nat := 0
  listings : List Listing := []
  calls : List Int := []
  updates : List JobUpdate := []

def reconcilePageSize : Nat := 200

def StoredJob.isStale (job : StoredJob) (now staleAfter : Int) : Bool :=
  job.row.status.isActive && decide (job.updatedAt < now - staleAfter)

def StoredJob.stale (job : StoredJob) : StaleJob :=
  { id := job.id
    status := job.row.status
    workflowID := job.workflowID.getD "" }

section Pass

variable (env : PassEnv)

def PassState.next (s : PassState) : PassState :=
  { s with statement := s.statement + 1, jobs := env.change s.statement s.jobs }

def staleJobs (s : PassState) : Except String (List StaleJob) × PassState :=
  let later := s.next env
  match env.listFails s.statement with
  | some message => (.error message, later)
  | none =>
      let now := env.now s.statement
      let listed := (later.jobs.filter (fun job =>
        job.isStale now env.staleAfter && decide (s.after < job.id))).take reconcilePageSize
      (.ok (listed.map StoredJob.stale),
        { later with
          listings := s.listings ++ [{ after := s.after, now := now, jobs := later.jobs }] })

def updateJob (id : Int) (allowed : JobRow → Bool) (write : JobRow → JobRow) (now : Int)
    (job : StoredJob) : StoredJob :=
  if job.id = id ∧ allowed job.row = true then { job with row := write job.row, updatedAt := now }
  else job

def affects (id : Int) (allowed : JobRow → Bool) (jobs : List StoredJob) : Bool :=
  jobs.any (fun job => decide (job.id = id) && allowed job.row)

def PassState.update (s : PassState) (call : StaleJob) (asked : Nat) (allowed : JobRow → Bool)
    (write : JobRow → JobRow) : Except String Bool × PassState :=
  let later := s.next env
  match env.fails s.statement with
  | some message => (.error message, later)
  | none =>
      if affects call.id allowed later.jobs = true then
        let jobs := later.jobs.map (updateJob call.id allowed write (env.now s.statement))
        (.ok true,
          { later with
            jobs := jobs
            updates := s.updates ++
              [{ call := call, asked := asked, before := later.jobs, after := jobs }] })
      else (.ok false, later)

def repairJob (call : StaleJob) (asked : Nat) (execution : Option WorkflowExecutionStatus)
    (s : PassState) : Except String Bool × PassState :=
  match repairFor execution with
  | none =>
      if call.status ≠ .pending ∨ execution ≠ some .running then (.ok false, s)
      else s.update env call asked (fun row => decide (row.status = .pending)) recordStarted
  | some outcome =>
      match env.fails s.statement with
      | some message => (.error message, s.next env)
      | none =>
          let t := env.counts s.statement call.id
          (s.next env).update env call asked (fun row => row.status.isActive)
            (Lifecycle.finalize t outcome true)

def reconcileJob (call : StaleJob) (s : PassState) : Except String Bool × PassState :=
  if call.workflowID = "" then repairJob env call s.statement none s
  else
    match env.describe s.statement call.workflowID with
    | .notFound => repairJob env call s.statement none (s.next env)
    | .failed message => (.error ("describe workflow: " ++ message), s.next env)
    | .found status => repairJob env call s.statement (some status) (s.next env)

/-- The loop over one page, with the error of a cancelled context. -/
def reconcilePage : List StaleJob → PassState → Option String × PassState
  | [], s => (none, s)
  | call :: rest, s =>
      match reconcileJob env call { s with after := call.id, calls := s.calls ++ [call.id] } with
      | (.error _, later) =>
          if env.cancelled later.statement = true then (some "context canceled", later)
          else reconcilePage rest later
      | (.ok changed, later) =>
          reconcilePage rest
            { later with repaired := if changed = true then later.repaired + 1 else later.repaired }

/-- The loop over the pages; `none` when the fuel is out. -/
def reconcilePages : Nat → PassState → Option (Option String × PassState)
  | 0, _ => none
  | fuel + 1, s =>
      match staleJobs env s with
      | (.error message, later) => some (some message, later)
      | (.ok jobs, later) =>
          match reconcilePage env jobs later with
          | (some message, last) => some (some message, last)
          | (none, last) =>
              if jobs.length < reconcilePageSize then some (none, last)
              else reconcilePages fuel last

def pass (fuel : Nat) (table : JobTable) : Option (Option String × PassState) :=
  match env.lock with
  | .error message => some (some message, { jobs := table.jobs })
  | .ok false => some (none, { jobs := table.jobs })
  | .ok true => reconcilePages env fuel { jobs := table.jobs }

end Pass

/-! ### One call -/

section Calls

variable {env : PassEnv}

/-- Why a job may be finalized: it has no workflow, or its workflow was reported
not found or in a state other than running and continued as new. -/
def Reported (env : PassEnv) (call : StaleJob) (asked : Nat) : Prop :=
  call.workflowID = "" ∨ env.describe asked call.workflowID = .notFound ∨
    ∃ status, env.describe asked call.workflowID = .found status ∧ status ≠ .running ∧
      status ≠ .continuedAsNew

def JobUpdate.Sound (env : PassEnv) (u : JobUpdate) : Prop :=
  ∃ early job late written, u.before = early ++ job :: late ∧ u.after = early ++ written :: late ∧
    job.id = u.call.id ∧ written.id = job.id ∧ job.row.status.isActive = true ∧
    (∃ execution t, written.row = Lifecycle.reconcile u.call.status execution t job.row) ∧
    (written.row.status.isTerminal = true → Reported env u.call u.asked)

structure Reconciled (env : PassEnv) (call : StaleJob) (s : PassState)
    (result : Except String Bool × PassState) : Prop where
  ids : result.2.jobs.map StoredJob.id = s.jobs.map StoredJob.id
  after : result.2.after = s.after
  calls : result.2.calls = s.calls
  listings : result.2.listings = s.listings
  repaired : result.2.repaired = s.repaired
  updates : (result.1 ≠ .ok true ∧ result.2.updates = s.updates) ∨
    (result.1 = .ok true ∧ ∃ u : JobUpdate, result.2.updates = s.updates ++ [u] ∧
      u.call = call ∧ u.Sound env)

theorem Reconciled.of_next {call : StaleJob} {s : PassState} {result : Except String Bool × PassState}
    (reconciled : Reconciled env call (s.next env) result) : Reconciled env call s result :=
  ⟨reconciled.ids.trans (env.keepsIDs _ _), reconciled.after, reconciled.calls,
    reconciled.listings, reconciled.repaired, reconciled.updates⟩

theorem reconciled_unchanged (call : StaleJob) (s : PassState) {answer : Except String Bool}
    (other : answer ≠ .ok true) : Reconciled env call s (answer, s) :=
  ⟨rfl, rfl, rfl, rfl, rfl, .inl ⟨other, rfl⟩⟩

theorem map_updateJob {jobs : List StoredJob} (ascending : (jobs.map StoredJob.id).Pairwise (· < ·))
    {id : Int} {allowed : JobRow → Bool} (affected : affects id allowed jobs = true)
    (write : JobRow → JobRow) (now : Int) :
    ∃ early job late, jobs = early ++ job :: late ∧ job.id = id ∧ allowed job.row = true ∧
      jobs.map (updateJob id allowed write now) =
        early ++ { job with row := write job.row, updatedAt := now } :: late := by
  obtain ⟨job, member, found⟩ := List.any_eq_true.mp affected
  rw [Bool.and_eq_true, decide_eq_true_eq] at found
  obtain ⟨early, late, split⟩ := List.append_of_mem member
  refine ⟨early, job, late, split, found.1, found.2, ?_⟩
  rw [split, List.map_append, List.map_cons, List.pairwise_append] at ascending
  obtain ⟨_, behind, across⟩ := ascending
  have others : ∀ other : StoredJob, other.id ≠ id →
      updateJob id allowed write now other = other := by
    intro other differs
    unfold updateJob
    rw [if_neg (fun both => differs both.1)]
  have before : early.map (updateJob id allowed write now) = early := by
    refine (List.map_congr_left ?_).trans (List.map_id early)
    intro other inside
    apply others
    have below := across other.id (List.mem_map_of_mem inside) job.id List.mem_cons_self
    rw [found.1] at below
    exact ne_of_lt below
  have after : late.map (updateJob id allowed write now) = late := by
    refine (List.map_congr_left ?_).trans (List.map_id late)
    intro other inside
    apply others
    have above := (List.pairwise_cons.mp behind).1 other.id (List.mem_map_of_mem inside)
    rw [found.1] at above
    exact ne_of_gt above
  have own : updateJob id allowed write now job =
      { job with row := write job.row, updatedAt := now } := by
    unfold updateJob
    rw [if_pos ⟨found.1, found.2⟩]
  rw [split, List.map_append, List.map_cons, before, after, own]

private theorem updateJob_id (id : Int) (allowed : JobRow → Bool) (write : JobRow → JobRow)
    (now : Int)
    (job : StoredJob) : (updateJob id allowed write now job).id = job.id := by
  unfold updateJob
  split
  · rfl
  · rfl

theorem update_reconciled {call : StaleJob} {s : PassState} {asked : Nat} {allowed : JobRow → Bool}
    {write : JobRow → JobRow} (ascending : (s.jobs.map StoredJob.id).Pairwise (· < ·))
    (active : ∀ row, allowed row = true → row.status.isActive = true)
    (writes : ∀ row, allowed row = true →
      ∃ execution t, write row = Lifecycle.reconcile call.status execution t row)
    (reported : ∀ row, allowed row = true → (write row).status.isTerminal = true →
      Reported env call asked) :
    Reconciled env call s (s.update env call asked allowed write) := by
  apply Reconciled.of_next
  unfold PassState.update
  split
  · exact reconciled_unchanged call (s.next env) (fun impossible => by cases impossible)
  · dsimp only
    split
    · rename_i affected
      have order : ((s.next env).jobs.map StoredJob.id).Pairwise (· < ·) := by
        rw [show (s.next env).jobs.map StoredJob.id = s.jobs.map StoredJob.id from
          env.keepsIDs _ _]
        exact ascending
      obtain ⟨early, job, late, split, own, allows, changed⟩ :=
        map_updateJob order affected write (env.now s.statement)
      refine ⟨?_, rfl, rfl, rfl, rfl, .inr ⟨rfl, _, rfl, rfl, ?_⟩⟩
      · rw [List.map_map]
        apply List.map_congr_left
        intro other _member
        exact updateJob_id _ _ _ _ other
      · exact ⟨early, job, late, _, split, changed, own, rfl, active job.row allows,
          writes job.row allows, reported job.row allows⟩
    · exact reconciled_unchanged call (s.next env) (fun impossible => by cases impossible)

theorem repairJob_reconciled {call : StaleJob} {s : PassState} {asked : Nat}
    {execution : Option WorkflowExecutionStatus}
    (ascending : (s.jobs.map StoredJob.id).Pairwise (· < ·))
    (reported : repairFor execution ≠ none → Reported env call asked) :
    Reconciled env call s (repairJob env call asked execution s) := by
  unfold repairJob
  cases repair : repairFor execution with
  | none =>
      dsimp only
      split
      · exact reconciled_unchanged call s (fun impossible => by cases impossible)
      · rename_i starts
        rw [not_or, not_not, not_not] at starts
        apply update_reconciled ascending
        · intro row pending
          rw [of_decide_eq_true pending]
          rfl
        · intro row _pending
          refine ⟨execution, {}, ?_⟩
          unfold Lifecycle.reconcile
          rw [repair]
          dsimp only
          rw [if_neg (by rw [not_or, not_not, not_not]; exact starts)]
        · intro row pending terminal
          unfold recordStarted at terminal
          dsimp only at terminal
          rw [if_pos (of_decide_eq_true pending)] at terminal
          cases terminal
  | some outcome =>
      have report := reported (by rw [repair]; exact Option.some_ne_none outcome)
      dsimp only
      split
      · exact (reconciled_unchanged call (s.next env) (fun impossible => by cases impossible)).of_next
      · apply Reconciled.of_next
        apply update_reconciled
        · rw [show (s.next env).jobs.map StoredJob.id = s.jobs.map StoredJob.id from
            env.keepsIDs _ _]
          exact ascending
        · intro row active
          exact active
        · intro row _active
          refine ⟨execution, env.counts s.statement call.id, ?_⟩
          unfold Lifecycle.reconcile
          rw [repair]
        · intro row _active _terminal
          exact report

theorem reconcileJob_reconciled {call : StaleJob} {s : PassState}
    (ascending : (s.jobs.map StoredJob.id).Pairwise (· < ·)) :
    Reconciled env call s (reconcileJob env call s) := by
  have order : ((s.next env).jobs.map StoredJob.id).Pairwise (· < ·) := by
    rw [show (s.next env).jobs.map StoredJob.id = s.jobs.map StoredJob.id from env.keepsIDs _ _]
    exact ascending
  unfold reconcileJob
  split
  · rename_i unnamed
    exact repairJob_reconciled ascending (fun _ => .inl unnamed)
  · cases answer : env.describe s.statement call.workflowID with
    | notFound =>
        exact (repairJob_reconciled order (fun _ => .inr (.inl answer))).of_next
    | failed message =>
        exact (reconciled_unchanged call (s.next env) (fun impossible => by cases impossible)).of_next
    | found status =>
        apply Reconciled.of_next
        apply repairJob_reconciled order
        intro repaired
        refine .inr (.inr ⟨status, answer, ?_, ?_⟩)
        · intro running
          rw [running] at repaired
          exact repaired rfl
        · intro continued
          rw [continued] at repaired
          exact repaired rfl

end Calls

section Pages

variable {env : PassEnv}

/-- The calls that were made for a page, from the first of its jobs on. -/
structure PageDone (env : PassEnv) (jobs : List StaleJob) (s : PassState)
    (result : Option String × PassState) : Prop where
  ids : result.2.jobs.map StoredJob.id = s.jobs.map StoredJob.id
  listings : result.2.listings = s.listings
  visited : ∃ visited rest, jobs = visited ++ rest ∧ (result.1 = none → rest = []) ∧
    result.2.calls = s.calls ++ visited.map StaleJob.id ∧
    result.2.after = ((visited.map StaleJob.id).getLast?).getD s.after ∧
    ∃ updates : List JobUpdate, result.2.updates = s.updates ++ updates ∧
      result.2.repaired = s.repaired + updates.length ∧
      List.Sublist (updates.map JobUpdate.call) visited ∧ ∀ u ∈ updates, u.Sound env

theorem reconcilePage_done (jobs : List StaleJob) :
    ∀ s : PassState, (s.jobs.map StoredJob.id).Pairwise (· < ·) →
      PageDone env jobs s (reconcilePage env jobs s) := by
  induction jobs with
  | nil =>
      intro s _ascending
      refine ⟨rfl, rfl, [], [], rfl, fun _ => rfl, ?_, rfl, [], ?_, rfl, .slnil, List.forall_mem_nil _⟩
      · exact (List.append_nil _).symm
      · exact (List.append_nil _).symm
  | cons call rest ih =>
      intro s ascending
      have called := @reconcileJob_reconciled env call
        { s with after := call.id, calls := s.calls ++ [call.id] } ascending
      unfold reconcilePage
      cases ran : reconcileJob env call
          { s with after := call.id, calls := s.calls ++ [call.id] } with
      | mk answer later =>
          rw [ran] at called
          obtain ⟨ids, after, calls, listings, repaired, updates⟩ := called
          dsimp only at ids after calls listings repaired updates
          have order : (later.jobs.map StoredJob.id).Pairwise (· < ·) := by
            rw [ids]
            exact ascending
          -- the page goes on behind the call, whose updates are `made`
          have goesOn : ∀ (state : PassState) (made : List JobUpdate),
              state.jobs = later.jobs → state.listings = later.listings →
              state.calls = later.calls → state.after = later.after →
              state.updates = s.updates ++ made → state.repaired = s.repaired + made.length →
              List.Sublist (made.map JobUpdate.call) [call] → (∀ u ∈ made, u.Sound env) →
              PageDone env (call :: rest) s (reconcilePage env rest state) := by
            intro state made sameJobs sameListings sameCalls sameAfter allUpdates counted within sound
            have done := ih state (by rw [sameJobs]; exact order)
            obtain ⟨doneIDs, doneListings, visited, left, split, ended, doneCalls, doneAfter, more,
              doneUpdates, doneRepaired, inside, moreSound⟩ := done
            refine ⟨?_, ?_, call :: visited, left, ?_, ended, ?_, ?_, made ++ more, ?_, ?_, ?_, ?_⟩
            · rw [doneIDs, sameJobs, ids]
            · rw [doneListings, sameListings, listings]
            · rw [split]
              rfl
            · rw [doneCalls, sameCalls, calls, List.append_assoc]
              rfl
            · rw [doneAfter, sameAfter, after, List.map_cons]
              cases shape : visited.map StaleJob.id with
              | nil => rfl
              | cons first others => rw [List.getLast?_cons_cons, List.getLast?_cons]; rfl
            · rw [doneUpdates, allUpdates, List.append_assoc]
            · rw [doneRepaired, counted, List.length_append]
              omega
            · rw [List.map_append]
              exact within.append inside
            · intro u member
              rcases List.mem_append.mp member with first | second
              · exact sound u first
              · exact moreSound u second
          cases answer with
          | error message =>
              have unchanged : later.updates = s.updates := by
                rcases updates with ⟨_, same⟩ | ⟨impossible, _⟩
                · exact same
                · cases impossible
              dsimp only
              split
              · refine ⟨ids, listings, [call], rest, rfl, ?_, calls, after, [], ?_, repaired,
                  List.nil_sublist _, List.forall_mem_nil _⟩
                · intro impossible
                  cases impossible
                · rw [unchanged, List.append_nil]
              · exact goesOn later [] rfl rfl rfl rfl (by rw [unchanged, List.append_nil]) repaired
                  (List.nil_sublist _) (List.forall_mem_nil _)
          | ok changed =>
              dsimp only
              rcases updates with ⟨none_changed, same⟩ | ⟨one_changed, u, same, own, sound⟩
              · have unchanged : ¬changed = true := by
                  intro yes
                  rw [yes] at none_changed
                  exact none_changed rfl
                apply goesOn _ []
                · rfl
                · rfl
                · rfl
                · rfl
                · rw [List.append_nil]
                  exact same
                · dsimp only
                  rw [if_neg unchanged]
                  exact repaired
                · exact List.nil_sublist _
                · exact List.forall_mem_nil _
              · have yes : changed = true := Except.ok.inj one_changed
                apply goesOn _ [u]
                · rfl
                · rfl
                · rfl
                · rfl
                · exact same
                · dsimp only
                  rw [if_pos yes, repaired]
                  rfl
                · rw [List.map_singleton, own]
                · intro other member
                  rw [List.mem_singleton.mp member]
                  exact sound

/-! ### The whole pass -/

/-- The job was stale and not yet done in every listing that could have had it. -/
def StaleThroughout (env : PassEnv) (s : PassState) (id : Int) : Prop :=
  ∀ listing ∈ s.listings, listing.after < id →
    ∃ job ∈ listing.jobs, job.id = id ∧ job.isStale listing.now env.staleAfter = true

structure PassInvariant (env : PassEnv) (table : JobTable) (s : PassState) : Prop where
  ids : s.jobs.map StoredJob.id = table.jobs.map StoredJob.id
  ascending : s.calls.Pairwise (· < ·)
  reached : ∀ id ∈ s.calls, id ≤ s.after
  covered : ∀ job ∈ table.jobs, job.id ≤ s.after → StaleThroughout env s job.id → job.id ∈ s.calls
  counted : s.repaired = s.updates.length
  updated : List.Sublist (s.updates.map (fun u => u.call.id)) s.calls
  sound : ∀ u ∈ s.updates, u.Sound env

private theorem invariant_start (env : PassEnv) (table : JobTable) :
    PassInvariant env table { jobs := table.jobs } := by
  refine ⟨rfl, .nil, List.forall_mem_nil _, ?_, rfl, .slnil, List.forall_mem_nil _⟩
  intro job member below
  have positive := table.positive job member
  exact absurd below (Int.not_le.mpr positive)

def PassState.wanted (env : PassEnv) (s : PassState) : List StoredJob :=
  (s.next env).jobs.filter (fun job =>
    job.isStale (env.now s.statement) env.staleAfter && decide (s.after < job.id))

def PassState.listed (env : PassEnv) (s : PassState) : PassState :=
  { s.next env with
    listings := s.listings ++
      [{ after := s.after, now := env.now s.statement, jobs := (s.next env).jobs }] }

private theorem staleJobs_eq (s : PassState) : staleJobs env s =
    match env.listFails s.statement with
    | some message => (.error message, s.next env)
    | none => (.ok (((s.wanted env).take reconcilePageSize).map StoredJob.stale), s.listed env) := rfl

theorem stale_ids (jobs : List StoredJob) :
    (jobs.map StoredJob.stale).map StaleJob.id = jobs.map StoredJob.id := by
  rw [List.map_map]
  rfl

section Paging

variable {table : JobTable} {s : PassState}

private theorem wanted_ascending (holds : PassInvariant env table s) :
    ((s.wanted env).map StoredJob.id).Pairwise (· < ·) := by
  have order : ((s.next env).jobs.map StoredJob.id).Pairwise (· < ·) := by
    rw [show (s.next env).jobs.map StoredJob.id = s.jobs.map StoredJob.id from env.keepsIDs _ _,
      holds.ids]
    exact table.ascending
  exact order.sublist (List.filter_sublist.map _)

theorem wanted_above {job : StoredJob} (member : job ∈ s.wanted env) : s.after < job.id := by
  have passed := (List.mem_filter.mp member).2
  rw [Bool.and_eq_true] at passed
  exact of_decide_eq_true passed.2

theorem StaleThroughout.of_listed {later : PassState} {id : Int}
    (stale : StaleThroughout env later id) (listings : later.listings = (s.listed env).listings) :
    StaleThroughout env s id := by
  intro listing inside
  apply stale listing
  rw [listings]
  exact List.mem_append_left _ inside

theorem wanted_of_stale {later : PassState}
    (listings : later.listings = (s.listed env).listings) {id : Int} (above : s.after < id)
    (stale : StaleThroughout env later id) : ∃ job ∈ s.wanted env, job.id = id := by
  have listing : ({ after := s.after, now := env.now s.statement, jobs := (s.next env).jobs } : Listing)
      ∈ later.listings := by
    rw [listings]
    exact List.mem_append_right _ (List.mem_singleton_self _)
  obtain ⟨job, member, own, isStale⟩ := stale _ listing above
  refine ⟨job, List.mem_filter.mpr ⟨member, ?_⟩, own⟩
  rw [isStale, Bool.true_and, own]
  exact decide_eq_true above

theorem invariant_of_page (holds : PassInvariant env table s) {visited : List StaleJob}
    {rest : List StaleJob} {later : PassState} {updates : List JobUpdate}
    (split : ((s.wanted env).take reconcilePageSize).map StoredJob.stale = visited ++ rest)
    (ids : later.jobs.map StoredJob.id = s.jobs.map StoredJob.id)
    (listings : later.listings = (s.listed env).listings)
    (calls : later.calls = s.calls ++ visited.map StaleJob.id)
    (after : later.after = ((visited.map StaleJob.id).getLast?).getD s.after)
    (recorded : later.updates = s.updates ++ updates)
    (repaired : later.repaired = s.repaired + updates.length)
    (within : List.Sublist (updates.map JobUpdate.call) visited)
    (sound : ∀ u ∈ updates, u.Sound env) : PassInvariant env table later := by
  have pageIDs : ((s.wanted env).map StoredJob.id).take reconcilePageSize =
      visited.map StaleJob.id ++ rest.map StaleJob.id := by
    rw [← List.map_take, ← stale_ids, split, List.map_append]
  have whole : (s.wanted env).map StoredJob.id = visited.map StaleJob.id ++
      (rest.map StaleJob.id ++ ((s.wanted env).map StoredJob.id).drop reconcilePageSize) := by
    rw [← List.append_assoc, ← pageIDs, List.take_append_drop]
  have order := wanted_ascending holds
  rw [whole] at order
  obtain ⟨front, _, across⟩ := List.pairwise_append.mp order
  have aboveAll : ∀ id ∈ visited.map StaleJob.id, s.after < id := by
    intro id member
    have wanted : id ∈ (s.wanted env).map StoredJob.id := by
      rw [whole]
      exact List.mem_append_left _ member
    obtain ⟨job, inside, rfl⟩ := List.mem_map.mp wanted
    exact wanted_above inside
  have last : (visited.map StaleJob.id = [] ∧ later.after = s.after) ∨
      (later.after ∈ visited.map StaleJob.id ∧ ∀ id ∈ visited.map StaleJob.id, id ≤ later.after) := by
    rcases List.eq_nil_or_concat (visited.map StaleJob.id) with none_visited | ⟨before, final, shape⟩
    · rw [none_visited] at after
      exact .inl ⟨none_visited, after⟩
    · rw [List.concat_eq_append] at shape
      rw [shape, List.getLast?_concat, Option.getD_some] at after
      rw [shape, List.pairwise_append] at front
      rw [after, shape]
      refine .inr ⟨List.mem_append_right _ (List.mem_singleton_self _), ?_⟩
      intro id member
      rcases List.mem_append.mp member with early | same
      · exact le_of_lt (front.2.2 id early final (List.mem_singleton_self _))
      · exact le_of_eq (List.mem_singleton.mp same)
  have toLast : s.after ≤ later.after ∧ ∀ id ∈ visited.map StaleJob.id, id ≤ later.after := by
    rcases last with ⟨none_visited, same⟩ | ⟨visits, bound⟩
    · rw [none_visited]
      exact ⟨le_of_eq same.symm, List.forall_mem_nil _⟩
    · exact ⟨le_of_lt (aboveAll _ visits), bound⟩
  refine ⟨?_, ?_, ?_, ?_, ?_, ?_, ?_⟩
  · rw [ids, holds.ids]
  · rw [calls, List.pairwise_append]
    refine ⟨holds.ascending, front, ?_⟩
    intro old isOld new isNew
    exact lt_of_le_of_lt (holds.reached old isOld) (aboveAll new isNew)
  · intro id member
    rw [calls] at member
    rcases List.mem_append.mp member with old | new
    · exact le_trans (holds.reached id old) toLast.1
    · exact toLast.2 id new
  · intro job member below stale
    rw [calls]
    rcases le_or_gt job.id s.after with old | new
    · apply List.mem_append_left
      exact holds.covered job member old (stale.of_listed listings)
    · apply List.mem_append_right
      obtain ⟨wanted, inside, own⟩ := wanted_of_stale listings new stale
      have present : job.id ∈ (s.wanted env).map StoredJob.id := List.mem_map.mpr ⟨wanted, inside, own⟩
      rw [whole] at present
      rcases List.mem_append.mp present with early | late
      · exact early
      · rcases last with ⟨_, same⟩ | ⟨visits, _⟩
        · rw [same] at below
          exact absurd below (not_le.mpr new)
        · have beyond := across later.after visits job.id late
          exact absurd below (not_le.mpr beyond)
  · rw [repaired, holds.counted, recorded, List.length_append]
  · rw [recorded, calls, List.map_append]
    apply holds.updated.append
    have mapped := within.map StaleJob.id
    rw [List.map_map] at mapped
    exact mapped
  · intro u member
    rw [recorded] at member
    rcases List.mem_append.mp member with old | new
    · exact holds.sound u old
    · exact sound u new

private theorem invariant_listed (holds : PassInvariant env table s) :
    PassInvariant env table (s.listed env) :=
  @invariant_of_page env table s holds [] _ (s.listed env) [] rfl (env.keepsIDs _ _) rfl
    (List.append_nil _).symm rfl (List.append_nil _).symm rfl .slnil (List.forall_mem_nil _)

private theorem reconcilePage_uncancelled (never : ∀ n, env.cancelled n = false)
    (jobs : List StaleJob) :
    ∀ s : PassState, (reconcilePage env jobs s).1 = none := by
  induction jobs with
  | nil =>
      intro s
      rfl
  | cons call rest ih =>
      intro s
      unfold reconcilePage
      split
      · rename_i later _
        rw [never, if_neg Bool.false_ne_true]
        exact ih later
      · exact ih _

def remaining (table : JobTable) (after : Int) : Nat :=
  (table.jobs.filter (fun job => decide (after < job.id))).length

private theorem remaining_lt {before after : Int} (later : before < after)
    (reached : after ∈ table.jobs.map StoredJob.id) : remaining table after < remaining table before := by
  obtain ⟨job, member, own⟩ := List.mem_map.mp reached
  unfold remaining
  have nested : table.jobs.filter (fun job => decide (after < job.id)) =
      (table.jobs.filter (fun job => decide (before < job.id))).filter
        (fun job => decide (after < job.id)) := by
    rw [List.filter_filter]
    apply List.filter_congr
    intro other _member
    by_cases beyond : after < other.id
    · simp only [beyond, lt_trans later beyond, decide_true, Bool.and_self]
    · simp only [beyond, decide_false, Bool.false_and]
  rw [nested, List.length_filter_lt_length_iff_exists]
  refine ⟨job, List.mem_filter.mpr ⟨member, ?_⟩, ?_⟩
  · rw [own]
    exact decide_eq_true later
  · rw [own, decide_eq_true_eq]
    exact lt_irrefl after

private theorem covered_of_short (holds : PassInvariant env table s) {visited : List StaleJob}
    {later : PassState}
    (split : ((s.wanted env).take reconcilePageSize).map StoredJob.stale = visited)
    (short : (((s.wanted env).take reconcilePageSize).map StoredJob.stale).length <
      reconcilePageSize)
    (listings : later.listings = (s.listed env).listings)
    (calls : later.calls = s.calls ++ visited.map StaleJob.id) {job : StoredJob}
    (member : job ∈ table.jobs) (stale : StaleThroughout env later job.id) :
    job.id ∈ later.calls := by
  rcases le_or_gt job.id s.after with old | new
  · rw [calls]
    apply List.mem_append_left
    exact holds.covered job member old (stale.of_listed listings)
  · rw [List.length_map, List.length_take] at short
    have whole : (s.wanted env).take reconcilePageSize = s.wanted env :=
      List.take_of_length_le (by omega)
    obtain ⟨wanted, inside, own⟩ := wanted_of_stale listings new stale
    rw [calls, ← split, whole, stale_ids]
    exact List.mem_append_right _ (List.mem_map.mpr ⟨wanted, inside, own⟩)

private theorem remaining_of_full (holds : PassInvariant env table s) {visited : List StaleJob}
    {later : PassState}
    (split : ((s.wanted env).take reconcilePageSize).map StoredJob.stale = visited)
    (full : ¬(((s.wanted env).take reconcilePageSize).map StoredJob.stale).length <
      reconcilePageSize)
    (after : later.after = ((visited.map StaleJob.id).getLast?).getD s.after) :
    remaining table later.after < remaining table s.after := by
  have ids : visited.map StaleJob.id =
      ((s.wanted env).take reconcilePageSize).map StoredJob.id := by
    rw [← split, stale_ids]
  rcases List.eq_nil_or_concat (visited.map StaleJob.id) with none_visited | ⟨before, final, shape⟩
  · rw [split, ← List.length_map StaleJob.id, none_visited] at full
    exact absurd (by decide : 0 < reconcilePageSize) full
  · rw [List.concat_eq_append] at shape
    rw [shape, List.getLast?_concat, Option.getD_some] at after
    have listed : later.after ∈ ((s.wanted env).take reconcilePageSize).map StoredJob.id := by
      rw [← ids, shape, after]
      exact List.mem_append_right _ (List.mem_singleton_self _)
    obtain ⟨job, inside, own⟩ := List.mem_map.mp listed
    have wanted := List.mem_of_mem_take inside
    apply remaining_lt
    · rw [← own]
      exact wanted_above wanted
    · rw [← holds.ids, ← env.keepsIDs s.statement, ← own]
      exact List.mem_map_of_mem (List.mem_filter.mp wanted).1

structure PassDone (env : PassEnv) (table : JobTable) (result : Option String × PassState) :
    Prop where
  invariant : PassInvariant env table result.2
  complete : result.1 = none → ∀ job ∈ table.jobs, StaleThroughout env result.2 job.id →
    job.id ∈ result.2.calls

theorem reconcilePages_done (fuel : Nat) :
    ∀ s : PassState, PassInvariant env table s → remaining table s.after < fuel →
      ∃ result, reconcilePages env fuel s = some result ∧ PassDone env table result ∧
        ((∀ n, env.listFails n = none) → (∀ n, env.cancelled n = false) → result.1 = none) := by
  induction fuel with
  | zero =>
      intro s _holds few
      exact absurd few (Nat.not_lt_zero _)
  | succ fuel ih =>
      intro s holds few
      unfold reconcilePages
      rw [staleJobs_eq]
      cases listing : env.listFails s.statement with
      | some message =>
          refine ⟨_, rfl, ⟨?_, fun impossible => by cases impossible⟩, ?_⟩
          · exact ⟨(env.keepsIDs _ _).trans holds.ids, holds.ascending, holds.reached, holds.covered,
              holds.counted, holds.updated, holds.sound⟩
          · intro lists _never
            rw [lists] at listing
            cases listing
      | none =>
          dsimp only
          have order : ((s.listed env).jobs.map StoredJob.id).Pairwise (· < ·) := by
            rw [(invariant_listed holds).ids]
            exact table.ascending
          obtain ⟨ids, listings, visited, rest, split, ended, calls, after, updates, recorded, repaired,
            within, sound⟩ := @reconcilePage_done env (((s.wanted env).take reconcilePageSize).map
              StoredJob.stale) (s.listed env) order
          have uncancelled : (∀ n, env.cancelled n = false) →
              (reconcilePage env (((s.wanted env).take reconcilePageSize).map StoredJob.stale)
                (s.listed env)).1 = none :=
            fun never => reconcilePage_uncancelled never _ _
          cases ran : reconcilePage env (((s.wanted env).take reconcilePageSize).map StoredJob.stale)
              (s.listed env) with
          | mk problem later =>
              rw [ran] at ids listings ended calls after recorded repaired uncancelled
              have next : PassInvariant env table later :=
                invariant_of_page holds split (ids.trans (env.keepsIDs _ _)) listings calls after
                  recorded repaired within sound
              cases problem with
              | some message =>
                  refine ⟨_, rfl, ⟨next, fun impossible => by cases impossible⟩, ?_⟩
                  intro _lists never
                  exact uncancelled never
              | none =>
                  dsimp only
                  have all : rest = [] := ended rfl
                  rw [all, List.append_nil] at split
                  split
                  · rename_i short
                    refine ⟨_, rfl, ⟨next, ?_⟩, fun _ _ => rfl⟩
                    intro _ended job member stale
                    exact covered_of_short holds split short listings calls member stale
                  · rename_i full
                    apply ih later next
                    exact lt_of_lt_of_le (remaining_of_full holds split full after)
                      (Nat.le_of_lt_succ few)

end Paging

private theorem pass_ends (env : PassEnv) (table : JobTable) :
    ∃ problem last, pass env (table.jobs.length + 1) table = some (problem, last) ∧
      PassInvariant env table last ∧
      (env.lock = .ok true → (∀ n, env.listFails n = none) → (∀ n, env.cancelled n = false) →
        problem = none ∧
          ∀ job ∈ table.jobs, StaleThroughout env last job.id → job.id ∈ last.calls) := by
  have start := invariant_start env table
  unfold pass
  cases env.lock with
  | error message =>
      exact ⟨some message, _, rfl, start, fun impossible => by cases impossible⟩
  | ok locked =>
      cases locked with
      | false =>
          exact ⟨none, _, rfl, start, fun impossible => by cases impossible⟩
      | true =>
          obtain ⟨⟨problem, last⟩, ran, ⟨invariant, complete⟩, succeeds⟩ :=
            reconcilePages_done (table.jobs.length + 1) { jobs := table.jobs } start
              (Nat.lt_succ_of_le (List.length_filter_le _ _))
          refine ⟨problem, last, ran, invariant, ?_⟩
          intro _locked lists never
          have ended : problem = none := succeeds lists never
          exact ⟨ended, complete ended⟩

/-- A pass ends. It calls each stale job once, in the order of the ids, and each of its
updates changes one active job, which it finalizes only for a reason of `Reported`. -/
theorem pass_covers (env : PassEnv) (table : JobTable) :
    ∃ problem last, pass env (table.jobs.length + 1) table = some (problem, last) ∧
      last.calls.Pairwise (· < ·) ∧
      (env.lock = .ok true → (∀ n, env.listFails n = none) → (∀ n, env.cancelled n = false) →
        problem = none ∧
          ∀ job ∈ table.jobs, StaleThroughout env last job.id → job.id ∈ last.calls) ∧
      (∀ u ∈ last.updates, u.Sound env) ∧
      last.repaired = last.updates.length ∧ (last.updates.map (fun u => u.call.id)).Nodup := by
  obtain ⟨problem, last, ran, invariant, complete⟩ := pass_ends env table
  refine ⟨problem, last, ran, invariant.ascending, complete, invariant.sound, invariant.counted, ?_⟩
  apply List.Nodup.sublist invariant.updated
  exact invariant.ascending.imp (fun below => ne_of_lt below)

def unnamedTable : JobTable where
  jobs := [{ id := 1, row := { status := .pending }, updatedAt := 0 }]
  ascending := List.pairwise_singleton _ _
  positive := by decide

def silentEnv : PassEnv where
  lock := .ok true
  change := fun _ jobs => jobs
  keepsIDs := fun _ _ => rfl
  describe := fun _ _ => .failed "unavailable"
  listFails := fun _ => none
  fails := fun _ => none
  cancelled := fun _ => false
  now := fun _ => 1000
  counts := fun _ _ => {}
  staleAfter := 300

def finalizedJob : StoredJob :=
  { id := 1
    row :=
      { status := .failed
        totals := some {}
        lastError := some "workflow not found: it never started or its history has expired" }
    updatedAt := 1000 }

/-- The job is finalized although the service reported nothing of it. -/
theorem unnamed_finalized :
    ¬ ∀ (env : PassEnv) (table : JobTable) (problem : Option String) (last : PassState),
      pass env (table.jobs.length + 1) table = some (problem, last) →
      ∀ u ∈ last.updates, ∀ job ∈ u.after, job ∉ u.before → job.row.status.isTerminal = true →
        env.describe u.asked u.call.workflowID = .notFound ∨
          ∃ status, env.describe u.asked u.call.workflowID = .found status ∧ status ≠ .running ∧
            status ≠ .continuedAsNew := by
  intro claimed
  have ran : ∃ last u, pass silentEnv 2 unnamedTable = some (none, last) ∧ last.updates = [u] ∧
      u.before = unnamedTable.jobs ∧ u.after = [finalizedJob] := ⟨_, _, rfl, rfl, rfl, rfl⟩
  obtain ⟨last, u, ran, updates, before, after⟩ := ran
  have updated : u ∈ last.updates := by
    rw [updates]
    exact List.mem_singleton_self u
  have written : finalizedJob ∈ u.after := by
    rw [after]
    exact List.mem_singleton_self _
  have new : finalizedJob ∉ u.before := by
    rw [before]
    decide
  rcases claimed silentEnv unnamedTable none last ran u updated finalizedJob written new rfl with
    unknown | ⟨status, reported, _⟩
  · cases unknown
  · cases reported

end Pages

end MigrationPlatform.Lifecycle
