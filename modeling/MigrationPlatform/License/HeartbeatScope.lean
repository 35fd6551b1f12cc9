/-
Which license the answer to a heartbeat is recorded for.

The license is read before the request is sent and written after the answer, and
a trial start can activate another one in between. The answer then is recorded
for the license that is active by that time.
-/

import MigrationPlatform.License.Client
import Mathlib.Tactic.ByContra

namespace MigrationPlatform.License

open GuardedRuns

def SameLicense (left right : LicenseDoc) : Prop :=
  left.licensee = right.licensee ∧ left.kind = right.kind ∧ left.fingerprint = right.fingerprint

instance (left right : LicenseDoc) : Decidable (SameLicense left right) :=
  inferInstanceAs (Decidable (_ ∧ _ ∧ _))

def TickPhase.inFlight : TickPhase → Option LicenseDoc
  | .awaiting asked => some asked
  | .refreshed asked _ => some asked
  | .renamed asked _ => some asked
  | .stamped asked _ _ => some asked
  | _ => none

def activatedSince : List Event → Option LicenseDoc
  | [] => none
  | .asked _ :: _ => none
  | .adopted doc :: _ => some doc
  | .trial doc :: _ => some doc
  | _ :: earlier => activatedSince earlier

/-- While a heartbeat is under way, the active license is the one it is for or
the one activated since, and the latter is not marked as revoked. -/
def Tracked (w : World) : Prop :=
  ∀ asked, w.tick.inFlight = some asked →
    w.state.doc = some ((activatedSince w.log).getD asked) ∧
      (activatedSince w.log ≠ none → w.state.revokedReason = none)

def Action.ofHeartbeat : Action → Bool
  | .answer _ _ => true
  | .tickRename _ => true
  | .tickStamp => true
  | .tickRefresh => true
  | _ => false

section Runs

variable (install : Install)

def OnlyItsOwn (w : World) (action : Action) : Prop :=
  ∀ asked cur next, action.ofHeartbeat = true → w.tick.inFlight = some asked →
    w.state.doc = some cur → ¬SameLicense cur asked → w.step install action = some next →
    next.state.doc = some cur ∧ next.state.revokedReason = w.state.revokedReason

/-- A denial, or a license that a refresh would replace, finds no other license
activated since the heartbeat was sent. -/
def InTime (w : World) : Action → Prop
  | .answer reply now =>
      ∀ asked cur status reason, w.tick = .awaiting asked →
        heartbeatOnce install.fingerprint reply now = .denied status reason →
        activatedSince w.log = some cur → SameLicense cur asked
  | .tickRefresh =>
      ∀ asked doc stamp cur, w.tick = .stamped asked doc stamp →
        activatedSince w.log = some cur → SameLicense cur asked ∨ cur = doc
  | _ => True

variable {install} {w next : World} {action : Action}

theorem Tracked.of_not_inFlight (ended : w.tick.inFlight = none) : Tracked w := by
  intro asked under
  rw [ended] at under
  cases under

theorem Tracked.of_same (tracked : Tracked w)
    (doc : next.state.doc = w.state.doc)
    (revoked : next.state.revokedReason = w.state.revokedReason)
    (since : activatedSince next.log = activatedSince w.log)
    (under : ∀ asked, next.tick.inFlight = some asked → w.tick.inFlight = some asked) :
    Tracked next := by
  intro asked inFlight
  rw [doc, revoked, since]
  exact tracked asked (under asked inFlight)

theorem Tracked.step (tracked : Tracked w) (taken : w.step install action = some next) :
    Tracked next := by
  cases step_move taken with
  | placed content => exact tracked.of_same rfl rfl rfl (fun _ => id)
  | removed => exact tracked.of_same rfl rfl rfl (fun _ => id)
  | missing phase absent => exact .of_not_inFlight rfl
  | statted stamp phase found => exact .of_not_inFlight rfl
  | unchanged stamp keyLoads phase skipped => exact .of_not_inFlight rfl
  | compared stamp keyLoads phase changed => exact .of_not_inFlight rfl
  | read stamp current phase => exact .of_not_inFlight rfl
  | verified stamp current content now phase => exact .of_not_inFlight rfl
  | adopted stamp current doc loadedStamp now phase better => exact .of_not_inFlight rfl
  | kept stamp current loaded now phase worse => exact .of_not_inFlight rfl
  | notDue now keyLoads attempt err phase => exact .of_not_inFlight rfl
  | asked now keyLoads doc phase active due =>
      intro asked inFlight
      cases inFlight
      exact ⟨active, fun activated => absurd rfl activated⟩
  | refreshed asked doc reply now phase outcome =>
      refine tracked.of_same rfl rfl rfl ?_
      intro other inFlight
      rw [phase]
      exact inFlight
  | denied asked reply now status reason phase outcome => exact .of_not_inFlight rfl
  | unavailable asked reply now err phase outcome => exact .of_not_inFlight rfl
  | renamed asked doc phase =>
      refine tracked.of_same rfl rfl rfl ?_
      intro other inFlight
      rw [phase]
      exact inFlight
  | notRenamed asked doc phase =>
      refine tracked.of_same rfl rfl rfl ?_
      intro other inFlight
      rw [phase]
      exact inFlight
  | stamped asked doc phase =>
      refine tracked.of_same rfl rfl rfl ?_
      intro other inFlight
      rw [phase]
      exact inFlight
  | recorded asked doc stamp phase => exact .of_not_inFlight rfl
  | trialBegun now => exact tracked.of_same rfl rfl rfl (fun _ => id)
  | trialAnswered index file now phase => exact tracked.of_same rfl rfl rfl (fun _ => id)
  | trialRenamed index doc phase => exact tracked.of_same rfl rfl rfl (fun _ => id)
  | trialNotRenamed index => exact tracked.of_same rfl rfl rfl (fun _ => id)
  | trialStamped index doc phase => exact tracked.of_same rfl rfl rfl (fun _ => id)
  | trialActivated index doc stamp phase => exact fun asked inFlight => ⟨rfl, fun _ => rfl⟩

theorem onlyItsOwn_answer_iff (tracked : Tracked w) (reply : Reply) (now : Int) :
    OnlyItsOwn install w (.answer reply now) ↔ InTime install w (.answer reply now) := by
  constructor
  · intro own asked cur status reason phase denies activated
    by_contra other
    have inFlight : w.tick.inFlight = some asked := by
      rw [phase]
      rfl
    obtain ⟨active, unmarked⟩ := tracked asked inFlight
    rw [activated] at active unmarked
    have taken : w.step install (.answer reply now) = some (w.answered install asked reply now) := by
      simp only [World.step, World.tickStep, phase]
    have marked := (own asked cur _ rfl inFlight active other taken).2
    rw [unmarked (Option.some_ne_none _)] at marked
    unfold World.answered at marked
    rw [denies] at marked
    cases marked
  · intro inTime asked cur next _ inFlight active other taken
    cases step_move taken with
    | refreshed sent doc reply now phase outcome => exact ⟨active, rfl⟩
    | unavailable sent reply now err phase outcome => exact ⟨active, rfl⟩
    | denied sent reply now status reason phase outcome =>
        have same : sent = asked := by
          rw [phase] at inFlight
          exact Option.some.inj inFlight
        subst same
        have current := (tracked sent inFlight).1
        rw [active] at current
        cases activated : activatedSince w.log with
        | none =>
            rw [activated] at current
            cases current
            exact absurd ⟨rfl, rfl, rfl⟩ other
        | some doc =>
            rw [activated] at current
            cases current
            exact absurd (inTime sent doc status reason phase outcome activated) other

theorem onlyItsOwn_refresh_iff (tracked : Tracked w) :
    OnlyItsOwn install w .tickRefresh ↔ InTime install w .tickRefresh := by
  constructor
  · intro own asked doc stamp cur phase activated
    by_cases same : SameLicense cur asked
    · exact .inl same
    · have inFlight : w.tick.inFlight = some asked := by
        rw [phase]
        rfl
      have active := (tracked asked inFlight).1
      rw [activated] at active
      have taken : w.step install .tickRefresh = some { w with
          state := activate w.state doc (stamp.or w.state.storeStamp)
          tick := .idle
          log := .refreshed doc :: w.log } := by
        simp only [World.step, World.tickStep, phase]
      have kept := (own asked cur _ rfl inFlight active same taken).1
      exact .inr (Option.some.inj kept).symm
  · intro inTime asked cur next _ inFlight active other taken
    cases step_move taken with
    | recorded sent doc stamp phase =>
        have same : sent = asked := by
          rw [phase] at inFlight
          exact Option.some.inj inFlight
        subst same
        obtain ⟨current, unmarked⟩ := tracked sent inFlight
        rw [active] at current
        cases activated : activatedSince w.log with
        | none =>
            rw [activated] at current
            cases current
            exact absurd ⟨rfl, rfl, rfl⟩ other
        | some latest =>
            rw [activated] at current unmarked
            cases current
            rcases inTime sent doc stamp latest phase activated with same | same
            · exact absurd same other
            · subst same
              exact ⟨rfl, (unmarked (Option.some_ne_none _)).symm⟩

private theorem onlyItsOwn_iff (tracked : Tracked w) (action : Action) :
    OnlyItsOwn install w action ↔ InTime install w action := by
  by_cases heartbeat : action.ofHeartbeat = true
  · cases action with
    | answer reply now => exact onlyItsOwn_answer_iff tracked reply now
    | tickRefresh => exact onlyItsOwn_refresh_iff tracked
    | tickRename works =>
        refine iff_of_true ?_ trivial
        intro asked cur next _ inFlight active other taken
        cases step_move taken with
        | renamed sent doc phase => exact ⟨active, rfl⟩
        | notRenamed sent doc phase => exact ⟨active, rfl⟩
    | tickStamp =>
        refine iff_of_true ?_ trivial
        intro asked cur next _ inFlight active other taken
        cases step_move taken with
        | stamped sent doc phase => exact ⟨active, rfl⟩
    | _ => cases heartbeat
  · refine iff_of_true (fun asked cur next impossible => absurd impossible heartbeat) ?_
    cases action <;> trivial

variable (install)

/-- In every interleaving that begins between two ticks, heartbeats leave other
licenses alone all along exactly where every answer is recorded in time. -/
theorem heartbeat_scope_iff (state : LicenseState) (store : Option StoreFile) (stamp : Nat)
    (actions : List Action) :
    (∀ early action late reached, actions = early ++ action :: late →
      run (World.step install) { state := state, store := store, nextStamp := stamp } early =
        some reached → OnlyItsOwn install reached action) ↔
    (∀ early action late reached, actions = early ++ action :: late →
      run (World.step install) { state := state, store := store, nextStamp := stamp } early =
        some reached → InTime install reached action) := by
  rw [← obeys_iff_forall, ← obeys_iff_forall]
  refine @Obeys.iff_of_invariant _ _ _ _ Tracked _ ?_ ?_ actions _ (.of_not_inFlight rfl)
  · intro w action next _inTime tracked taken
    exact tracked.step taken
  · intro w action tracked
    exact onlyItsOwn_iff tracked action

end Runs

/-! ### A trial under a commercial heartbeat -/

def plant : Install := { fingerprint := "00112233445566778899aabbccddeeff" }

def acmeLicense (issuedAt : Int) : LicenseDoc :=
  { licensee := "Acme"
    expiresAt := days 365
    issuedAt := some issuedAt
    kind := .commercial
    fingerprint := some "00112233445566778899aabbccddeeff"
    requiresHeartbeat := true }

def plantTrial (issuedAt : Int) : LicenseDoc :=
  { licensee := "lead@example.com"
    expiresAt := days 20
    features := ["core"]
    maxSeats := some 5
    issuedAt := some issuedAt
    kind := .trial
    fingerprint := some "00112233445566778899aabbccddeeff"
    requiresHeartbeat := true }

/-- A license that is out of grace is re-attested while an administrator starts a trial. -/
def trialDuringHeartbeat : List Action :=
  [.tickStat, .tickDue (days 10) true, .trialBegin (days 10),
    .trialAnswer 0 (some (plantTrial (days 10))) (days 10), .trialRename 0 true, .trialStamp 0,
    .trialActivate 0]

/-- The denial of the commercial license revokes the trial that was started
since, and its refresh replaces the trial. -/
theorem heartbeat_reaches_other_license :
    (∃ reached, run (World.step plant) { state := { doc := some (acmeLicense 0) } }
        trialDuringHeartbeat = some reached ∧
      isLicensed reached.state plant.fingerprint (days 10) = true ∧
      ¬OnlyItsOwn plant reached (.answer (.response 403 "license revoked: chargeback" none)
        (days 10))) ∧
    ∃ reached, run (World.step plant) { state := { doc := some (acmeLicense 0) } }
        (trialDuringHeartbeat ++
          [.answer (.response 200 "" (some (acmeLicense (days 10)))) (days 10),
            .tickRename true, .tickStamp]) = some reached ∧
      reached.state.doc = some (plantTrial (days 10)) ∧
      ¬OnlyItsOwn plant reached .tickRefresh := by
  constructor
  · refine ⟨_, rfl, by decide +kernel, ?_⟩
    intro own
    have kept := (own (acmeLicense 0) (plantTrial (days 10)) _ rfl rfl rfl (by decide +kernel) rfl).2
    cases kept
  · refine ⟨_, rfl, rfl, ?_⟩
    intro own
    have kept := (own (acmeLicense 0) (plantTrial (days 10)) _ rfl rfl rfl (by decide +kernel) rfl).1
    revert kept
    decide +kernel

end MigrationPlatform.License
