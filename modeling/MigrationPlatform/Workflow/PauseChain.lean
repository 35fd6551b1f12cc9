/-
Pause and resume signals along a chain of runs.

`runMigration` keeps `paused` in a variable of the run and checks it before
each batch. The signals wait in two channels until the listener goroutine
reads them, which happens only while the main goroutine is blocked; each run
begins unpaused and with channels of its own. Receiving a signal, reading the
channels and the steps of the loop are separate actions, taken in any order
the loop allows.
-/

import MigrationPlatform.Lifecycle.JobControl
import MigrationPlatform.Workflow.IngestOnce

namespace MigrationPlatform.Workflow

open GuardedRuns MigrationPlatform.Connectors MigrationPlatform.Lifecycle

/-- The order in which the listener reads: its selector asks the pause channel
first, and each channel is a queue. -/
def readOrder (unread : List ControlKind) : List ControlKind :=
  unread.filter (fun kind => decide (kind = .pause)) ++
    unread.filter (fun kind => decide (kind = .resume))

def listened (paused : Bool) (unread : List ControlKind) : Bool :=
  (readOrder unread).foldl (fun _ kind => decide (kind = .pause)) paused

/-- `batch` says that the loop is past its pause check, with a batch started.
`received` is every signal the chain has received, oldest first; the code does
not keep it. -/
structure PausableChain where
  chain : ChainState
  paused : Bool := false
  unread : List ControlKind := []
  batch : Bool := false
  received : List ControlKind := []

inductive PauseAction
  | receive (kind : ControlKind)
  | listen
  | start (licensed : Option String) (loaded : Except String LoadTemplateOutput)
  | sleep (error : Option String)
  | ingest
  | finish (env : RoundEnv)

def ChainPhase.isStarting : ChainPhase → Bool
  | .starting => true
  | _ => false

def ChainPhase.isLooping : ChainPhase → Bool
  | .looping _ => true
  | _ => false

def PausableChain.afterRound (s : PausableChain) (chain : ChainState) : PausableChain :=
  if chain.phase.isStarting = true then { chain := chain, received := s.received }
  else { s with chain := chain, batch := false }

def PausableChain.step (sha256Hex : String → String) (describe : ActivityError → String)
    (checkpointed : Bool) (s : PausableChain) : PauseAction → Option PausableChain
  | .receive kind =>
      if s.chain.phase.isStarting = true ∨ s.chain.phase.isLooping = true then
        some { s with unread := s.unread ++ [kind], received := s.received ++ [kind] }
      else none
  | .listen =>
      if s.chain.phase.isLooping = true then
        some { s with paused := listened s.paused s.unread, unread := [] }
      else none
  | .start licensed loaded =>
      (s.chain.step sha256Hex describe checkpointed (.start licensed loaded)).map
        (fun chain => { s with chain := chain, paused := false })
  | .sleep error =>
      if s.chain.phase.isLooping = true ∧ s.batch = false ∧ s.paused = true then
        match error with
        | none => some s
        | some message =>
            some { s with chain := { s.chain with phase := .failed (.plain message) } }
      else none
  | .ingest =>
      if s.chain.phase.isLooping = true ∧ s.batch = false ∧ s.paused = false then
        some { s with batch := true }
      else none
  | .finish env =>
      if s.batch = true ∧ env.pauseSleep.isNone = true then
        (s.chain.step sha256Hex describe checkpointed (.round env)).map s.afterRound
      else none

def PausableChain.begin (input : MigrationWorkflowInput) : PausableChain :=
  { chain := { input := input } }

/-- The newest signal is read before a batch starts if it is a pause, the
listener never finds it beside an older resume, and no run hands over while it
is the newest signal of the chain. -/
def PauseKept (sha256Hex : String → String) (describe : ActivityError → String)
    (checkpointed : Bool) (s : PausableChain) : PauseAction → Prop
  | .ingest => s.unread.getLast? ≠ some .pause
  | .listen => s.unread.getLast? = some .pause → .resume ∉ s.unread
  | .finish env =>
      match s.chain.step sha256Hex describe checkpointed (.round env) with
      | some chain => chain.phase.isStarting = true → s.received.getLast? ≠ some .pause
      | none => True
  | _ => True

private theorem listened_pause {unread : List ControlKind} (paused : Bool)
    (newest : unread.getLast? = some .pause) (noResume : .resume ∉ unread) :
    listened paused unread = true := by
  have all : ∀ kind ∈ unread, kind = .pause := by
    intro kind member
    cases kind with
    | pause => rfl
    | resume => exact absurd member noResume
  have resumes : unread.filter (fun kind => decide (kind = .resume)) = [] := by
    apply List.filter_eq_nil_iff.mpr
    intro kind member
    rw [all kind member]
    decide
  have pauses : unread.filter (fun kind => decide (kind = .pause)) = unread := by
    apply List.filter_eq_self.mpr
    intro kind member
    exact decide_eq_true (all kind member)
  have split : unread = unread.dropLast ++ [.pause] :=
    (List.dropLast_append_getLast? _ newest).symm
  unfold listened readOrder
  rw [resumes, pauses, List.append_nil, split, List.foldl_append]
  rfl

/-- What is known of the newest signal: it waits unread, or it has been read
and `paused` says whether it is a pause. -/
structure PauseHeld (s : PausableChain) : Prop where
  unread : s.unread ≠ [] → s.unread.getLast? = s.received.getLast?
  read : s.unread = [] → s.received.getLast? = some .pause → s.paused = true
  starting : s.chain.phase.isStarting = true → s.paused = false

private theorem begin_held (input : MigrationWorkflowInput) :
    PauseHeld (PausableChain.begin input) := by
  constructor
  · intro impossible
    exact absurd rfl impossible
  · intro _unread impossible
    cases impossible
  · intro _starting
    rfl

section Steps

variable {sha256Hex : String → String} {describe : ActivityError → String} {checkpointed : Bool}
variable {s next : PausableChain}

private theorem afterRound_held {chain : ChainState} (held : PauseHeld s)
    (kept : chain.phase.isStarting = true → s.received.getLast? ≠ some .pause) :
    PauseHeld (s.afterRound chain) := by
  unfold PausableChain.afterRound
  split
  · rename_i handsOver
    constructor
    · intro impossible
      exact absurd rfl impossible
    · intro _unread pause
      exact absurd pause (kept handsOver)
    · intro _starting
      rfl
  · rename_i goesOn
    constructor
    · exact held.unread
    · exact held.read
    · intro impossible
      exact absurd impossible goesOn

private theorem not_starting_of_looping {phase : ChainPhase} (looping : phase.isLooping = true) :
    phase.isStarting = false := by
  cases phase with
  | looping run => rfl
  | starting => cases looping
  | completed run => cases looping
  | failed err => cases looping

private theorem starting_of_start {chain after : ChainState} {licensed : Option String}
    {loaded : Except String LoadTemplateOutput}
    (started : chain.step sha256Hex describe checkpointed (.start licensed loaded) = some after) :
    chain.phase.isStarting = true := by
  simp only [ChainState.step] at started
  split at started
  · rename_i phase
    rw [phase]
    rfl
  · cases started

theorem step_held {action : PauseAction}
    (kept : PauseKept sha256Hex describe checkpointed s action)
    (held : PauseHeld s)
    (taken : s.step sha256Hex describe checkpointed action = some next) : PauseHeld next := by
  cases action with
  | receive kind =>
      simp only [PausableChain.step] at taken
      split at taken
      · cases taken
        constructor
        · intro _unread
          change (s.unread ++ [kind]).getLast? = (s.received ++ [kind]).getLast?
          rw [List.getLast?_concat, List.getLast?_concat]
        · intro empty
          exact absurd empty (List.append_ne_nil_of_right_ne_nil _ (List.cons_ne_nil kind []))
        · exact held.starting
      · cases taken
  | listen =>
      simp only [PausableChain.step] at taken
      split at taken
      · rename_i looping
        cases taken
        constructor
        · intro impossible
          exact absurd rfl impossible
        · intro _read pause
          change s.received.getLast? = some .pause at pause
          change listened s.paused s.unread = true
          by_cases empty : s.unread = []
          · rw [empty]
            exact held.read empty pause
          · have newest : s.unread.getLast? = some .pause := (held.unread empty).trans pause
            exact listened_pause s.paused newest (kept newest)
        · intro starting
          change s.chain.phase.isStarting = true at starting
          rw [not_starting_of_looping looping] at starting
          cases starting
      · cases taken
  | start licensed loaded =>
      obtain ⟨chain, started, rfl⟩ := Option.map_eq_some_iff.mp taken
      have unpaused := held.starting (starting_of_start started)
      constructor
      · exact held.unread
      · intro empty pause
        rw [held.read empty pause] at unpaused
        cases unpaused
      · intro _starting
        rfl
  | sleep error =>
      simp only [PausableChain.step] at taken
      split at taken
      · cases error with
        | none =>
            cases taken
            exact held
        | some message =>
            cases taken
            constructor
            · exact held.unread
            · exact held.read
            · intro impossible
              cases impossible
      · cases taken
  | ingest =>
      simp only [PausableChain.step] at taken
      split at taken
      · cases taken
        exact ⟨held.unread, held.read, held.starting⟩
      · cases taken
  | finish env =>
      simp only [PausableChain.step] at taken
      split at taken
      · obtain ⟨chain, rounded, rfl⟩ := Option.map_eq_some_iff.mp taken
        simp only [PauseKept, rounded] at kept
        exact afterRound_held held kept
      · cases taken

end Steps

/-- In every history of a chain in which the pause is kept, no batch starts
while the last signal received is a pause. -/
theorem no_batch_while_paused (sha256Hex : String → String) (describe : ActivityError → String)
    (checkpointed : Bool) (input : MigrationWorkflowInput) (history : List PauseAction)
    (s next : PausableChain)
    (ran : run (PausableChain.step sha256Hex describe checkpointed) (PausableChain.begin input)
      history = some s)
    (kept : Obeys (PausableChain.step sha256Hex describe checkpointed)
      (PauseKept sha256Hex describe checkpointed) (PausableChain.begin input) history)
    (read : PauseKept sha256Hex describe checkpointed s .ingest)
    (starts : s.step sha256Hex describe checkpointed .ingest = some next) :
    s.received.getLast? ≠ some .pause := by
  have held : PauseHeld s := invariant_of_obeys
    (fun _ _ _ allowed held taken => step_held allowed held taken) history _ s (begin_held input)
    kept ran
  intro pause
  by_cases empty : s.unread = []
  · have paused := held.read empty pause
    simp only [PausableChain.step, paused] at starts
    split at starts
    · rename_i unpaused
      cases unpaused.2.2
    · cases starts
  · exact read ((held.unread empty).trans pause)

/-! ### Histories -/

/-- A run that reads a pause and a resume before its first batch. -/
theorem batch_after_resume :
    ∃ s, run (PausableChain.step createSha256 describeError true)
        (PausableChain.begin { jobID := 7 })
        [.start none (.ok createTemplate), .receive .pause, .listen, .sleep none,
          .receive .resume, .listen] = some s ∧
      s.received.getLast? ≠ some .pause := by
  refine ⟨_, rfl, ?_⟩
  refine no_batch_while_paused createSha256 describeError true { jobID := 7 }
    [.start none (.ok createTemplate), .receive .pause, .listen, .sleep none, .receive .resume,
      .listen] _ _ rfl ?_ ?_ rfl
  · have pauseAlone : ControlKind.resume ∉ [ControlKind.pause] := by decide
    have resumed : [ControlKind.resume].getLast? ≠ some .pause := by decide
    exact ⟨trivial, trivial, fun _ => pauseAlone, trivial, trivial,
      fun newest => absurd newest resumed, trivial⟩
  · exact (by decide : ([] : List ControlKind).getLast? ≠ some .pause)

/-- A pause read while the source is pending, with the history full: the run
hands over, and the next one starts a batch. -/
theorem batch_after_hand_over :
    ∃ s next, run (PausableChain.step createSha256 describeError true)
        (PausableChain.begin { jobID := 7 })
        [.start none (.ok createTemplate), .ingest, .receive .pause, .listen,
          .finish (ingestRound { pending := true } { calm with suggested := true } []),
          .start none (.ok createTemplate)] = some s ∧
      s.step createSha256 describeError true .ingest = some next ∧
      s.received.getLast? = some .pause := by
  exact ⟨_, _, rfl, rfl, rfl⟩

end MigrationPlatform.Workflow
