/-
When a process loses its license, and when it stays lost.

A denial is a mark beside the document. Every activation clears it, and a license
that is marked counts as one to be replaced by any usable document, so that an
older attestation of the denied license in the store brings it back. In the other
direction, a license is lost only by a denial or by what its own document says.
-/

import MigrationPlatform.License.HeartbeatScope

namespace MigrationPlatform.License

open GuardedRuns

private theorem isLicensed_of_revoked {state : LicenseState} (revoked : state.revokedReason ≠ none)
    (fp : String) (now : Int) : isLicensed state fp now = false := by
  have marked : state.revokedReason.isSome = true := Option.isSome_iff_ne_none.mpr revoked
  unfold isLicensed problemFor
  rw [if_pos marked]
  simp

theorem isLicensed_iff {state : LicenseState} {fp : String} {now : Int} :
    isLicensed state fp now = true ↔
      state.revokedReason = none ∧ ∃ doc, state.doc = some doc ∧ validity doc fp now = .ok () := by
  unfold isLicensed problemFor
  cases revoked : state.revokedReason with
  | some reason => simp
  | none =>
      cases held : state.doc with
      | none => simp
      | some doc =>
          cases valid : validity doc fp now with
          | error problem => simp [valid]
          | ok done => simp [valid]

/-! ### A denial stands -/

/-- The license that was denied last and the time of the denial, unless a later
answer lifted it or another license was activated. An attestation of the denied
license counts as another one only if it was signed after the denial. -/
def standingDenial : List Event → Option (LicenseDoc × Int)
  | [] => none
  | .denied asked now :: _ => some (asked, now)
  | .refreshed _ :: _ => none
  | .trial _ :: _ => none
  | .adopted doc :: earlier =>
      (standingDenial earlier).filter (fun denial =>
        decide (SameLicense doc denial.1 ∧ doc.issuedAt.getD 0 ≤ denial.2))
  | _ :: earlier => standingDenial earlier

def TickPhase.snapshot : TickPhase → Option LicenseState
  | .reading _ current => some current
  | .read _ current _ => some current
  | .checked _ current _ => some current
  | _ => none

def Marked (state : LicenseState) : Prop := state.revokedReason ≠ none ∧ state.doc ≠ none

/-- While a denial stands, the mark is there, also where the task looks at it. -/
def MarkStands (w : World) : Prop :=
  standingDenial w.log ≠ none →
    Marked w.state ∧ ∀ current, w.tick.snapshot = some current → Marked current

variable {doc : LicenseDoc}

section Runs

variable (install : Install)

def DenialStands (w : World) : Prop :=
  standingDenial w.log ≠ none → ∀ now, isLicensed w.state install.fingerprint now = false

/-- While a denial stands, the task does not find a usable attestation of the
denied license in the store that was signed before, other than the active one. -/
def NoOldAttestation (w : World) : Action → Prop
  | .tickAdopt now =>
      ∀ stamp current doc loadedStamp denied deniedAt,
        w.tick = .checked stamp current (some (doc, loadedStamp)) → current.doc ≠ some doc →
        validity doc install.fingerprint now = .ok () →
        standingDenial w.log = some (denied, deniedAt) →
        ¬(SameLicense doc denied ∧ doc.issuedAt.getD 0 ≤ deniedAt)
  | _ => True

variable {install} {w next : World} {action : Action}

private theorem MarkStands.denialStands (stands : MarkStands w) : DenialStands install w := by
  intro denied now
  exact isLicensed_of_revoked (stands denied).1.1 _ now

theorem MarkStands.of_lifted (lifted : standingDenial w.log = none) : MarkStands w := by
  intro denied
  exact absurd lifted denied

theorem MarkStands.of_same (stands : MarkStands w)
    (doc : next.state.doc = w.state.doc)
    (revoked : next.state.revokedReason = w.state.revokedReason)
    (log : standingDenial next.log = standingDenial w.log)
    (seen : ∀ current, next.tick.snapshot = some current →
      w.tick.snapshot = some current ∨ current = w.state) : MarkStands next := by
  intro denied
  rw [log] at denied
  obtain ⟨marked, snapshots⟩ := stands denied
  constructor
  · unfold Marked
    rw [doc, revoked]
    exact marked
  · intro current snapshot
    rcases seen current snapshot with before | now
    · exact snapshots current before
    · rw [now]
      exact marked

private theorem shouldAdopt_of_marked {current : LicenseState} {fp : String}
    {now : Int} (marked : Marked current) (other : current.doc ≠ some doc)
    (usable : validity doc fp now = .ok ()) : shouldAdopt current doc fp now = true := by
  unfold shouldAdopt
  cases held : current.doc with
  | none => exact absurd held marked.2
  | some cur =>
      have different : cur ≠ doc := by
        intro same
        rw [held, same] at other
        exact other rfl
      have problem : (problemFor current fp now).isSome = true := by
        unfold problemFor
        rw [if_pos (Option.isSome_iff_ne_none.mpr marked.1)]
        rfl
      have fine : ¬(validity doc fp now).isOk = false := by
        rw [usable]
        nofun
      simp only [if_neg different, if_neg fine, problem, if_true]

private theorem of_shouldAdopt_marked {current : LicenseState} {fp : String}
    {now : Int} (marked : Marked current) (adopts : shouldAdopt current doc fp now = true) :
    current.doc ≠ some doc ∧ validity doc fp now = .ok () := by
  unfold shouldAdopt at adopts
  cases held : current.doc with
  | none => exact absurd held marked.2
  | some cur =>
      simp only [held] at adopts
      split at adopts
      · cases adopts
      · rename_i different
        split at adopts
        · cases adopts
        · rename_i fine
          refine ⟨fun same => different (Option.some.inj same), ?_⟩
          cases valid : validity doc fp now with
          | ok done => rfl
          | error problem =>
              rw [valid] at fine
              exact absurd rfl fine

theorem MarkStands.step (stands : MarkStands w) (tracked : Tracked w)
    (guarded : NoOldAttestation install w action) (taken : w.step install action = some next) :
    MarkStands next := by
  have none_seen : ∀ phase : TickPhase, phase.snapshot = none →
      ∀ current, phase.snapshot = some current →
        w.tick.snapshot = some current ∨ current = w.state := by
    intro phase unseen current seen
    rw [unseen] at seen
    cases seen
  cases step_move taken with
  | placed content => exact stands.of_same rfl rfl rfl (fun _ => .inl)
  | removed => exact stands.of_same rfl rfl rfl (fun _ => .inl)
  | missing phase absent => exact stands.of_same rfl rfl rfl (none_seen _ rfl)
  | statted stamp phase found => exact stands.of_same rfl rfl rfl (none_seen _ rfl)
  | unchanged stamp keyLoads phase skipped => exact stands.of_same rfl rfl rfl (none_seen _ rfl)
  | compared stamp keyLoads phase changed =>
      refine stands.of_same rfl rfl rfl ?_
      intro current seen
      exact .inr (Option.some.inj seen).symm
  | read stamp current phase =>
      refine stands.of_same rfl rfl rfl ?_
      intro current seen
      rw [phase]
      exact .inl seen
  | verified stamp current content now phase =>
      refine stands.of_same rfl rfl rfl ?_
      intro current seen
      rw [phase]
      exact .inl seen
  | adopted stamp current doc loadedStamp now phase better =>
      apply MarkStands.of_lifted
      change (standingDenial w.log).filter _ = none
      cases denial : standingDenial w.log with
      | none => rfl
      | some held =>
          obtain ⟨denied, deniedAt⟩ := held
          have marked : Marked current := by
            apply (stands (by rw [denial]; nofun)).2
            rw [phase]
            rfl
          obtain ⟨other, usable⟩ := of_shouldAdopt_marked marked better
          have fresh := guarded stamp current doc loadedStamp denied deniedAt phase other usable denial
          exact Option.filter_eq_none_iff.mpr (by
            intro found same
            cases same
            rw [decide_eq_true_eq]
            exact fresh)
  | kept stamp current loaded now phase worse => exact stands.of_same rfl rfl rfl (none_seen _ rfl)
  | notDue now keyLoads attempt err phase => exact stands.of_same rfl rfl rfl (none_seen _ rfl)
  | asked now keyLoads doc phase active due => exact stands.of_same rfl rfl rfl (none_seen _ rfl)
  | refreshed asked doc reply now phase outcome =>
      exact stands.of_same rfl rfl rfl (none_seen _ rfl)
  | denied asked reply now status reason phase outcome =>
      intro _denied
      have active := (tracked asked (by rw [phase]; rfl)).1
      refine ⟨⟨Option.some_ne_none _, ?_⟩, ?_⟩
      · rw [active]
        exact Option.some_ne_none _
      · intro current seen
        cases seen
  | unavailable asked reply now err phase outcome =>
      exact stands.of_same rfl rfl rfl (none_seen _ rfl)
  | renamed asked doc phase => exact stands.of_same rfl rfl rfl (none_seen _ rfl)
  | notRenamed asked doc phase => exact stands.of_same rfl rfl rfl (none_seen _ rfl)
  | stamped asked doc phase => exact stands.of_same rfl rfl rfl (none_seen _ rfl)
  | recorded asked doc stamp phase => exact .of_lifted rfl
  | trialBegun now => exact stands.of_same rfl rfl rfl (fun _ => .inl)
  | trialAnswered index file now phase => exact stands.of_same rfl rfl rfl (fun _ => .inl)
  | trialRenamed index doc phase => exact stands.of_same rfl rfl rfl (fun _ => .inl)
  | trialNotRenamed index => exact stands.of_same rfl rfl rfl (fun _ => .inl)
  | trialStamped index doc phase => exact stands.of_same rfl rfl rfl (fun _ => .inl)
  | trialActivated index doc stamp phase => exact .of_lifted rfl

theorem denialStands_step_iff (stands : MarkStands w) (tracked : Tracked w) (action : Action) :
    (∀ next, w.step install action = some next → DenialStands install next) ↔
      NoOldAttestation install w action := by
  constructor
  · intro after
    cases action with
    | tickAdopt now =>
        intro stamp current doc loadedStamp denied deniedAt phase other usable denial old
        have marked : Marked current := by
          apply (stands (by rw [denial]; exact Option.some_ne_none _)).2
          rw [phase]
          rfl
        have adopts := shouldAdopt_of_marked marked other usable
        have taken : w.step install (.tickAdopt now) = some { w with
            state := activate w.state doc loadedStamp
            tick := .reloaded
            log := .adopted doc :: w.log } := by
          simp only [World.step, World.tickStep, phase, World.adopt, adopts, if_true]
        have remains : standingDenial (.adopted doc :: w.log) ≠ none := by
          simp only [standingDenial, denial, Option.filter_some, decide_eq_true old, if_true]
          exact Option.some_ne_none _
        have unlicensed := after _ taken remains now
        have licensed : isLicensed (activate w.state doc loadedStamp) install.fingerprint now =
            true := isLicensed_iff.mpr ⟨rfl, doc, rfl, usable⟩
        rw [licensed] at unlicensed
        cases unlicensed
    | _ => trivial
  · intro guarded next taken
    exact (stands.step tracked guarded taken).denialStands

variable (install)

/-- In every interleaving that begins between two ticks, every denial stands all
along exactly where no old attestation of the denied license is found. -/
theorem denial_sticks_iff (state : LicenseState) (store : Option StoreFile) (stamp : Nat)
    (actions : List Action) :
    (∀ early action late reached next, actions = early ++ action :: late →
      run (World.step install) { state := state, store := store, nextStamp := stamp } early =
        some reached → reached.step install action = some next → DenialStands install next) ↔
    (∀ early action late reached, actions = early ++ action :: late →
      run (World.step install) { state := state, store := store, nextStamp := stamp } early =
        some reached → NoOldAttestation install reached action) := by
  have split : ∀ w : World, MarkStands w ∧ Tracked w → ∀ action,
      ((∀ next, w.step install action = some next → DenialStands install next) ↔
        NoOldAttestation install w action) :=
    fun w held action => denialStands_step_iff held.1 held.2 action
  have initial : MarkStands { state := state, store := store, nextStamp := stamp } ∧
      Tracked { state := state, store := store, nextStamp := stamp } :=
    ⟨.of_lifted rfl, .of_not_inFlight rfl⟩
  have both := @Obeys.iff_of_invariant World Action (World.step install)
    (NoOldAttestation install) (fun w => MarkStands w ∧ Tracked w)
    (fun w action => ∀ next, w.step install action = some next → DenialStands install next)
    (fun w action next guarded held taken =>
      ⟨held.1.step held.2 guarded taken, held.2.step taken⟩)
    (fun w action held => split w held action) actions _ initial
  rw [obeys_iff_forall, obeys_iff_forall] at both
  rw [← both]
  constructor
  · intro every early action late reached isSplit ran next taken
    exact every early action late reached next isSplit ran taken
  · intro every early action late reached next isSplit ran taken
    exact every early action late reached isSplit ran next taken

end Runs

/-- The license is denied; another replica has put its attestation of the day
before into the store. -/
def oldAttestationStored : List Action :=
  [.tickStat, .tickDue (days 10) true,
    .answer (.response 403 "license revoked: chargeback" none) (days 10),
    .place (some (acmeLicense (days 8))), .tickStat, .tickCompare true, .tickRead,
    .tickVerify (days 10), .tickAdopt (days 10)]

theorem old_attestation_lifts_denial :
    ∃ reached, run (World.step plant) { state := { doc := some (acmeLicense (days 9)) } }
        oldAttestationStored = some reached ∧
      standingDenial reached.log = some (acmeLicense (days 9), days 10) ∧
      isLicensed reached.state plant.fingerprint (days 10) = true ∧
      ¬DenialStands plant reached := by
  refine ⟨_, rfl, by decide +kernel, by decide +kernel, ?_⟩
  intro stands
  have unlicensed := stands (by decide +kernel) (days 10)
  revert unlicensed
  decide +kernel

/-! ### No other loss -/

def TickPhase.holds : TickPhase → Option LicenseDoc
  | .checked _ _ (some (doc, _)) => some doc
  | .refreshed _ doc => some doc
  | .renamed _ doc => some doc
  | .stamped _ doc _ => some doc
  | _ => none

def TrialPhase.holds : TrialPhase → Option LicenseDoc
  | .issued doc => some doc
  | .renamed doc => some doc
  | .stamped doc _ => some doc
  | _ => none

section Losses

variable (install : Install)

/-- The document is bound to no other install, as far as `validity` checks it. -/
def BoundHere (doc : LicenseDoc) : Prop :=
  ¬(install.fingerprint ≠ "" ∧ doc.fingerprint.isSome ∧
    doc.fingerprint ≠ some install.fingerprint)

structure HeldBound (w : World) : Prop where
  tick : ∀ doc, w.tick.holds = some doc → BoundHere install doc
  trials : ∀ phase ∈ w.trials, ∀ doc, phase.holds = some doc → BoundHere install doc

structure Unmarked (w : World) : Prop where
  held : HeldBound install w
  active : ∃ doc, w.state.doc = some doc ∧ BoundHere install doc
  unmarked : w.state.revokedReason = none

def NotDenied (_ : World) : Action → Prop
  | .answer (.response status _ _) _ => status ≠ 402 ∧ status ≠ 403
  | _ => True

variable {install} {w next : World} {action : Action}

theorem boundHere_of_some (bound : doc.fingerprint = some install.fingerprint) :
    BoundHere install doc := by
  rintro ⟨_, _, other⟩
  exact other bound

private theorem boundHere_of_loaded {content : Option LicenseDoc} {now : Int}
    (loaded : loadAndVerify install.fingerprint content now = some doc) : BoundHere install doc := by
  unfold loadAndVerify at loaded
  split at loaded
  · cases loaded
  · split at loaded
    · rename_i bound
      cases loaded
      rintro ⟨_, isSome, other⟩
      obtain ⟨found, is⟩ := Option.isSome_iff_exists.mp isSome
      rw [is] at bound other
      exact other (congrArg some (eq_of_beq bound))
    · cases loaded

private theorem boundHere_of_refreshed {reply : Reply} {now : Int}
    (outcome : heartbeatOnce install.fingerprint reply now = .refreshed doc) :
    BoundHere install doc := by
  unfold heartbeatOnce at outcome
  split at outcome
  · cases outcome
  · split at outcome
    · split at outcome
      · cases outcome
      · split at outcome
        · rename_i bound
          cases outcome
          exact boundHere_of_some bound
        · cases outcome
    · split at outcome <;> cases outcome

private theorem boundHere_of_issued {file : Option LicenseDoc} {now : Int}
    (issued : (trialIssued install file now).holds = some doc) : BoundHere install doc := by
  unfold trialIssued at issued
  split at issued
  · cases issued
  · split at issued
    · rename_i bound
      cases issued
      exact boundHere_of_some bound.2
    · cases issued

private theorem status_of_denied {reply : Reply} {now : Int} {status : Nat} {reason : String}
    (outcome : heartbeatOnce install.fingerprint reply now = .denied status reason) :
    ∃ file, reply = .response status reason file ∧ (status = 402 ∨ status = 403) := by
  unfold heartbeatOnce at outcome
  split at outcome
  · cases outcome
  · split at outcome
    · split at outcome
      · cases outcome
      · split at outcome <;> cases outcome
    · split at outcome
      · rename_i refused
        cases outcome
        exact ⟨_, rfl, refused⟩
      · cases outcome

theorem HeldBound.set (held : HeldBound install w) (index : Nat) {phase : TrialPhase}
    (bound : ∀ doc, phase.holds = some doc → BoundHere install doc) :
    ∀ other ∈ w.trials.set index phase, ∀ doc, other.holds = some doc → BoundHere install doc := by
  intro other member doc holds
  rcases List.mem_or_eq_of_mem_set member with old | new
  · exact held.trials other old doc holds
  · subst new
    exact bound doc holds

theorem HeldBound.at (held : HeldBound install w) {index : Nat} {phase : TrialPhase}
    (found : w.trials[index]? = some phase) (holds : phase.holds = some doc) :
    BoundHere install doc :=
  held.trials phase (List.mem_of_getElem? found) doc holds

theorem HeldBound.of_released (held : HeldBound install w) (released : next.tick.holds = none)
    (trials : next.trials = w.trials) : HeldBound install next := by
  constructor
  · intro doc holds
    rw [released] at holds
    cases holds
  · rw [trials]
    exact held.trials

theorem HeldBound.step (held : HeldBound install w) (taken : w.step install action = some next) :
    HeldBound install next := by
  have ticked : ∀ doc, w.tick.holds = some doc → BoundHere install doc := held.tick
  cases step_move taken with
  | placed content => exact ⟨held.tick, held.trials⟩
  | removed => exact ⟨held.tick, held.trials⟩
  | missing phase absent => exact held.of_released rfl rfl
  | statted stamp phase found => exact held.of_released rfl rfl
  | unchanged stamp keyLoads phase skipped => exact held.of_released rfl rfl
  | compared stamp keyLoads phase changed => exact held.of_released rfl rfl
  | read stamp current phase => exact held.of_released rfl rfl
  | verified stamp current content now phase =>
      refine ⟨?_, held.trials⟩
      intro doc holds
      cases loaded : loadAndVerify install.fingerprint content now with
      | none =>
          rw [loaded] at holds
          cases holds
      | some found =>
          rw [loaded] at holds
          cases holds
          exact boundHere_of_loaded loaded
  | adopted stamp current doc loadedStamp now phase better => exact held.of_released rfl rfl
  | kept stamp current loaded now phase worse => exact held.of_released rfl rfl
  | notDue now keyLoads attempt err phase => exact held.of_released rfl rfl
  | asked now keyLoads doc phase active due => exact held.of_released rfl rfl
  | refreshed asked doc reply now phase outcome =>
      refine ⟨?_, held.trials⟩
      intro found holds
      cases holds
      exact boundHere_of_refreshed outcome
  | denied asked reply now status reason phase outcome => exact held.of_released rfl rfl
  | unavailable asked reply now err phase outcome => exact held.of_released rfl rfl
  | renamed asked doc phase =>
      rw [phase] at ticked
      exact ⟨ticked, held.trials⟩
  | notRenamed asked doc phase =>
      rw [phase] at ticked
      exact ⟨ticked, held.trials⟩
  | stamped asked doc phase =>
      rw [phase] at ticked
      exact ⟨ticked, held.trials⟩
  | recorded asked doc stamp phase => exact held.of_released rfl rfl
  | trialBegun now =>
      refine ⟨held.tick, ?_⟩
      intro phase member doc holds
      rcases List.mem_append.mp member with old | new
      · exact held.trials phase old doc holds
      · cases List.mem_singleton.mp new
        cases holds
  | trialAnswered index file now phase =>
      exact ⟨held.tick, held.set index (fun _ => boundHere_of_issued)⟩
  | trialRenamed index doc phase =>
      refine ⟨held.tick, held.set index ?_⟩
      intro found holds
      exact held.at phase holds
  | trialNotRenamed index => exact ⟨held.tick, held.set index (fun _ holds => by cases holds)⟩
  | trialStamped index doc phase =>
      refine ⟨held.tick, held.set index ?_⟩
      intro found holds
      exact held.at phase holds
  | trialActivated index doc stamp phase => exact ⟨held.tick, held.set index (fun _ holds => by cases holds)⟩

theorem Unmarked.step (unmarked : Unmarked install w) (allowed : NotDenied w action)
    (taken : w.step install action = some next) : Unmarked install next := by
  have held := unmarked.held.step taken
  have ticked := unmarked.held.tick
  cases step_move taken with
  | adopted stamp current doc loadedStamp now phase better =>
      rw [phase] at ticked
      exact ⟨held, ⟨doc, rfl, ticked doc rfl⟩, rfl⟩
  | recorded asked doc stamp phase =>
      rw [phase] at ticked
      exact ⟨held, ⟨doc, rfl, ticked doc rfl⟩, rfl⟩
  | trialActivated index doc stamp phase =>
      exact ⟨held, ⟨doc, rfl, unmarked.held.at phase rfl⟩, rfl⟩
  | denied asked reply now status reason phase outcome =>
      obtain ⟨file, same, refused⟩ := status_of_denied outcome
      subst same
      rcases refused with refused | refused
      · exact absurd refused allowed.1
      · exact absurd refused allowed.2
  | _ => exact ⟨held, unmarked.active, unmarked.unmarked⟩

theorem lapsed_of_unlicensed (unmarked : Unmarked install w) {now : Int}
    (unlicensed : isLicensed w.state install.fingerprint now = false) :
    ∃ doc, w.state.doc = some doc ∧
      (doc.expiresAt ≤ now ∨
        doc.requiresHeartbeat = true ∧
          (doc.issuedAt = none ∨
            ∃ issued, doc.issuedAt = some issued ∧ now - issued > heartbeatGrace)) := by
  obtain ⟨doc, active, bound⟩ := unmarked.active
  refine ⟨doc, active, ?_⟩
  by_contra alive
  rw [not_or] at alive
  have valid : validity doc install.fingerprint now = .ok () := by
    unfold validity
    rw [if_neg alive.1, if_neg bound]
    by_cases beats : doc.requiresHeartbeat = true
    · rw [if_pos beats]
      cases issued : doc.issuedAt with
      | none => exact absurd ⟨beats, .inl issued⟩ alive.2
      | some signed =>
          have within : ¬now - signed > heartbeatGrace := by
            intro late
            exact alive.2 ⟨beats, .inr ⟨signed, issued, late⟩⟩
          simp only [if_neg within]
    · rw [if_neg beats]
  rw [isLicensed_iff.mpr ⟨unmarked.unmarked, doc, active, valid⟩] at unlicensed
  cases unlicensed

/-- A process that had a license and has none either was denied in between or
has a document that is expired, out of grace or without the signed time that the
grace is measured from. -/
theorem license_lost_only_by_denial_or_lapse {state : LicenseState} {store : Option StoreFile}
    {stamp : Nat} {early late : List Action} {reached final : World} {before after : Int}
    (ranEarly : run (World.step install) { state := state, store := store, nextStamp := stamp }
      early = some reached)
    (licensed : isLicensed reached.state install.fingerprint before = true)
    (ranLate : run (World.step install) reached late = some final)
    (unlicensed : isLicensed final.state install.fingerprint after = false) :
    (∃ status message file now, .answer (.response status message file) now ∈ late ∧
      (status = 402 ∨ status = 403)) ∨
    ∃ doc, final.state.doc = some doc ∧
      (doc.expiresAt ≤ after ∨
        doc.requiresHeartbeat = true ∧
          (doc.issuedAt = none ∨
            ∃ issued, doc.issuedAt = some issued ∧ after - issued > heartbeatGrace)) := by
  by_cases denied : ∃ status message file now,
      .answer (.response status message file) now ∈ late ∧ (status = 402 ∨ status = 403)
  · exact .inl denied
  · refine .inr (lapsed_of_unlicensed ?_ unlicensed)
    have initial : HeldBound install { state := state, store := store, nextStamp := stamp } := by
      constructor
      · intro doc holds
        cases holds
      · intro phase impossible
        cases impossible
    have held : HeldBound install reached := by
      refine invariant_of_run ?_ early _ reached initial ranEarly
      intro w action next holds taken
      exact holds.step taken
    have quiet : ∀ action ∈ late, ∀ w, NotDenied w action := by
      intro action member w
      cases action with
      | answer reply now =>
          cases reply with
          | failed message => trivial
          | response status message file =>
              constructor
              · intro refused
                exact denied ⟨status, message, file, now, member, .inl refused⟩
              · intro refused
                exact denied ⟨status, message, file, now, member, .inr refused⟩
      | _ => trivial
    have start : Unmarked install reached := by
      obtain ⟨unmarked, doc, active, valid⟩ := isLicensed_iff.mp licensed
      refine ⟨held, ⟨doc, active, ?_⟩, unmarked⟩
      unfold validity at valid
      split at valid
      · cases valid
      · split at valid
        · cases valid
        · rename_i here
          exact here
    refine invariant_of_obeys ?_ late reached final start (obeys_of_forall quiet reached) ranLate
    intro w action next allowed holds taken
    exact holds.step allowed taken

end Losses

/-- The license is re-attested with a document that requires heartbeats and does
not say when it was signed. -/
def undatedRefresh : List Action :=
  [.tickStat, .tickDue (days 10) true,
    .answer (.response 200 "" (some { acmeLicense 0 with issuedAt := none })) (days 10),
    .tickRename true, .tickStamp, .tickRefresh]

theorem undated_license_lost :
    ∃ final, run (World.step plant) { state := { doc := some (acmeLicense (days 9)) } }
        undatedRefresh = some final ∧
      ((∃ status message file now, .answer (.response status message file) now ∈ undatedRefresh ∧
          (status = 402 ∨ status = 403)) ∨
        ∃ doc, final.state.doc = some doc ∧
          (doc.expiresAt ≤ days 11 ∨
            doc.requiresHeartbeat = true ∧
              (doc.issuedAt = none ∨
                ∃ issued, doc.issuedAt = some issued ∧ days 11 - issued > heartbeatGrace))) :=
  ⟨_, rfl, @license_lost_only_by_denial_or_lapse plant { doc := some (acmeLicense (days 9)) } none 0 []
    undatedRefresh _ _ (days 10) (days 11) rfl (by decide +kernel) rfl (by decide +kernel)⟩

/-- It was licensed, no heartbeat was denied, and the document is neither expired
nor signed more than 72 hours ago. -/
theorem undated_license_lost_without_denial :
    isLicensed { doc := some (acmeLicense (days 9)) } plant.fingerprint (days 10) = true ∧
    ∃ final, run (World.step plant) { state := { doc := some (acmeLicense (days 9)) } }
        undatedRefresh = some final ∧
      isLicensed final.state plant.fingerprint (days 11) = false ∧
      ¬((∃ status message file now, .answer (.response status message file) now ∈ undatedRefresh ∧
          (status = 402 ∨ status = 403)) ∨
        ∃ doc, final.state.doc = some doc ∧
          (doc.expiresAt ≤ days 11 ∨
            doc.requiresHeartbeat = true ∧
              ∃ issued, doc.issuedAt = some issued ∧ days 11 - issued > heartbeatGrace)) := by
  refine ⟨by decide +kernel, _, rfl, by decide +kernel, ?_⟩
  rintro (⟨status, message, file, now, member, refused⟩ | ⟨doc, active, lapsed⟩)
  · have good : status = 200 := by
      simp only [undatedRefresh, List.mem_cons, Action.answer.injEq, Reply.response.injEq,
        List.not_mem_nil, or_false, reduceCtorEq, false_or] at member
      exact member.1.1
    omega
  · cases active
    rcases lapsed with expired | ⟨_, issued, impossible, _⟩
    · revert expired
      decide +kernel
    · cases impossible

end MigrationPlatform.License
