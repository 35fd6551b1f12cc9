/-
The license of an API process.

One background task ticks: it adopts a changed store file and re-attests the
license when that is due. Trial starts run beside it, and other replicas or an
operator replace the store file at any time. Every access to the shared state or
to the file is a step of its own, so that a run is an interleaving of them. The
clock is read anew at each step that reads it.
-/

import MigrationPlatform.Foundation.GuardedRuns
import MigrationPlatform.License.Document

namespace MigrationPlatform.License

open GuardedRuns

/-- The raw file of `doc` is `doc` itself. A stamp stands for the modification
time and the length of the store file. -/
structure LicenseState where
  doc : Option LicenseDoc := none
  revokedReason : Option String := none
  lastHeartbeatAttempt : Option Int := none
  lastHeartbeatError : Option String := none
  storeStamp : Option Nat := none
deriving DecidableEq, Repr

def problemFor (state : LicenseState) (fp : String) (now : Int) : Option LicenseProblem :=
  if state.revokedReason.isSome then some .revoked
  else
    match state.doc with
    | none => none
    | some doc =>
        match validity doc fp now with
        | .error problem => some problem
        | .ok () => none

def isLicensed (state : LicenseState) (fp : String) (now : Int) : Bool :=
  state.doc.isSome && (problemFor state fp now).isNone

/-- An attempt that lies less than the retry interval back holds the next one off. -/
def retryDue (last : Option Int) (now : Int) : Bool :=
  match last with
  | some last => decide (now - last ≥ heartbeatRetry)
  | none => true

def heartbeatDue (interval : Int) (state : LicenseState) (now : Int) : Bool :=
  match state.doc with
  | none => false
  | some doc =>
      if doc.requiresHeartbeat = false then false
      else if state.revokedReason.isSome then retryDue state.lastHeartbeatAttempt now
      else
        match doc.issuedAt with
        | none => true
        | some issued =>
            if now - issued ≥ interval then
              state.lastHeartbeatError.isNone || retryDue state.lastHeartbeatAttempt now
            else false

def activate (state : LicenseState) (doc : LicenseDoc) (stamp : Option Nat) : LicenseState :=
  { state with
    doc := some doc
    revokedReason := none
    lastHeartbeatError := none
    storeStamp := stamp }

def loadAndVerify (fp : String) (content : Option LicenseDoc) (now : Int) : Option LicenseDoc :=
  match verifyLicense content now with
  | .error _ => none
  | .ok doc => if doc.fingerprint.all (fun bound => bound == fp) then some doc else none

def shouldAdopt (current : LicenseState) (candidate : LicenseDoc) (fp : String) (now : Int) :
    Bool :=
  match current.doc with
  | none => true
  | some cur =>
      if cur = candidate then false
      else if (validity candidate fp now).isOk = false then false
      else if (problemFor current fp now).isSome then true
      else
        match cur.kind, candidate.kind with
        | .trial, .commercial => true
        | .commercial, .trial => false
        | _, _ => decide (candidate.issuedAt.getD 0 > cur.issuedAt.getD 0)

inductive Reply
  | failed (message : String)
  | response (status : Nat) (message : String) (file : Option LicenseDoc)
deriving DecidableEq, Repr

inductive HeartbeatOutcome
  | refreshed (doc : LicenseDoc)
  | denied (status : Nat) (reason : String)
  | unavailable (err : String)
deriving DecidableEq, Repr

/-- `heartbeat_once` from the reply of the server on. `message` is what
`extract_error_message` finds in the body. -/
def heartbeatOnce (fp : String) (reply : Reply) (now : Int) : HeartbeatOutcome :=
  match reply with
  | .failed message => .unavailable message
  | .response status message file =>
      if status = 200 then
        match verifyLicense file now with
        | .error _ => .unavailable "heartbeat response rejected"
        | .ok doc =>
            if doc.fingerprint = some fp then .refreshed doc
            else .unavailable "heartbeat response is bound to a different install"
      else if status = 402 ∨ status = 403 then .denied status message
      else .unavailable ("license server returned " ++ toString status)

structure StoreFile where
  content : Option LicenseDoc
  stamp : Nat
deriving DecidableEq, Repr

inductive TickPhase
  | idle
  | statted (stamp : Nat)
  | reading (stamp : Nat) (current : LicenseState)
  | read (stamp : Nat) (current : LicenseState) (content : Option LicenseDoc)
  | checked (stamp : Nat) (current : LicenseState) (loaded : Option (LicenseDoc × Option Nat))
  | reloaded
  | awaiting (asked : LicenseDoc)
  | refreshed (asked doc : LicenseDoc)
  | renamed (asked doc : LicenseDoc)
  | stamped (asked doc : LicenseDoc) (stamp : Option Nat)
deriving DecidableEq, Repr

inductive TrialPhase
  | requested
  | issued (doc : LicenseDoc)
  | renamed (doc : LicenseDoc)
  | stamped (doc : LicenseDoc) (stamp : Option Nat)
  | ended
deriving DecidableEq, Repr

/-- What happened, for the statements about runs. No step reads it. -/
inductive Event
  | placed (content : Option LicenseDoc)
  | read
  | wrote
  | adopted (doc : LicenseDoc)
  | asked (doc : LicenseDoc)
  | denied (asked : LicenseDoc) (now : Int)
  | refreshed (doc : LicenseDoc)
  | trial (doc : LicenseDoc)
deriving DecidableEq, Repr

structure World where
  state : LicenseState := {}
  store : Option StoreFile := none
  nextStamp : Nat := 0
  tick : TickPhase := .idle
  trials : List TrialPhase := []
  log : List Event := []
deriving DecidableEq, Repr

structure Install where
  fingerprint : String
  interval : Int := heartbeatInterval
  serverConfigured : Bool := true

inductive Action
  | place (content : Option LicenseDoc)
  | remove
  | tickStat
  | tickCompare (keyLoads : Bool)
  | tickRead
  | tickVerify (now : Int)
  | tickAdopt (now : Int)
  | tickDue (now : Int) (keyLoads : Bool)
  | answer (reply : Reply) (now : Int)
  | tickRename (works : Bool)
  | tickStamp
  | tickRefresh
  | trialBegin (now : Int)
  | trialAnswer (index : Nat) (file : Option LicenseDoc) (now : Int)
  | trialRename (index : Nat) (works : Bool)
  | trialStamp (index : Nat)
  | trialActivate (index : Nat)
deriving DecidableEq, Repr

def World.fileStamp (w : World) : Option Nat := w.store.map StoreFile.stamp

/-- The store file replaced as a whole. Every write leaves a stamp of its own. -/
def World.write (w : World) (content : Option LicenseDoc) (event : Event) : World :=
  { w with
    store := some { content := content, stamp := w.nextStamp }
    nextStamp := w.nextStamp + 1
    log := event :: w.log }

section Step

variable (install : Install)

def World.adopt (w : World) (stamp : Nat) (current : LicenseState)
    (loaded : Option (LicenseDoc × Option Nat)) (now : Int) : World :=
  match loaded with
  | none => { w with state := { w.state with storeStamp := some stamp }, tick := .reloaded }
  | some (doc, loadedStamp) =>
      if shouldAdopt current doc install.fingerprint now = true then
        { w with
          state := activate w.state doc loadedStamp
          tick := .reloaded
          log := .adopted doc :: w.log }
      else { w with state := { w.state with storeStamp := some stamp }, tick := .reloaded }

def World.due (w : World) (now : Int) (keyLoads : Bool) : World :=
  match w.state.doc with
  | none => { w with tick := .idle }
  | some doc =>
      if heartbeatDue install.interval w.state now = false then { w with tick := .idle }
      else
        let attempted := { w.state with lastHeartbeatAttempt := some now }
        if install.serverConfigured = false then
          { w with
            state := { attempted with
              lastHeartbeatError := some ("license requires heartbeat but " ++
                "LICENSE_SERVER_URL/LICENSE_SERVER_TOKEN are unset") }
            tick := .idle }
        else if keyLoads = false then { w with state := attempted, tick := .idle }
        else { w with state := attempted, tick := .awaiting doc, log := .asked doc :: w.log }

def World.answered (w : World) (asked : LicenseDoc) (reply : Reply) (now : Int) : World :=
  match heartbeatOnce install.fingerprint reply now with
  | .refreshed doc => { w with tick := .refreshed asked doc }
  | .denied status reason =>
      { w with
        state := { w.state with
          revokedReason := some (toString status ++ ": " ++ reason)
          lastHeartbeatError := some reason }
        tick := .idle
        log := .denied asked now :: w.log }
  | .unavailable err =>
      { w with state := { w.state with lastHeartbeatError := some err }, tick := .idle }

def trialIssued (file : Option LicenseDoc) (now : Int) : TrialPhase :=
  match verifyLicense file now with
  | .error _ => .ended
  | .ok doc =>
      if doc.kind = .trial ∧ doc.fingerprint = some install.fingerprint then .issued doc
      else .ended

def World.tickStep (w : World) : Action → Option World
  | .tickStat =>
      match w.tick with
      | .idle =>
          match w.fileStamp with
          | none => some { w with tick := .reloaded }
          | some stamp => some { w with tick := .statted stamp }
      | _ => none
  | .tickCompare keyLoads =>
      match w.tick with
      | .statted stamp =>
          if w.state.storeStamp = some stamp ∨ keyLoads = false then
            some { w with tick := .reloaded }
          else some { w with tick := .reading stamp w.state }
      | _ => none
  | .tickRead =>
      match w.tick with
      | .reading stamp current =>
          some { w with
            tick := .read stamp current (w.store.bind StoreFile.content)
            log := .read :: w.log }
      | _ => none
  | .tickVerify now =>
      match w.tick with
      | .read stamp current content =>
          some { w with
            tick := .checked stamp current
              ((loadAndVerify install.fingerprint content now).map (fun doc => (doc, w.fileStamp))) }
      | _ => none
  | .tickAdopt now =>
      match w.tick with
      | .checked stamp current loaded => some (w.adopt install stamp current loaded now)
      | _ => none
  | .tickDue now keyLoads =>
      match w.tick with
      | .reloaded => some (w.due install now keyLoads)
      | _ => none
  | .answer reply now =>
      match w.tick with
      | .awaiting asked => some (w.answered install asked reply now)
      | _ => none
  | .tickRename works =>
      match w.tick with
      | .refreshed asked doc =>
          if works = true then
            some { w.write (some doc) .wrote with tick := .renamed asked doc }
          else some { w with tick := .stamped asked doc none }
      | _ => none
  | .tickStamp =>
      match w.tick with
      | .renamed asked doc => some { w with tick := .stamped asked doc w.fileStamp }
      | _ => none
  | .tickRefresh =>
      match w.tick with
      | .stamped _ doc stamp =>
          some { w with
            state := activate w.state doc (stamp.or w.state.storeStamp)
            tick := .idle
            log := .refreshed doc :: w.log }
      | _ => none
  | _ => none

/-- The steps of `POST /license/trial`, which looks at the active license only
when it begins. -/
def World.trialStep (w : World) : Action → Option World
  | .trialBegin now =>
      if w.state.doc.any (fun doc => decide (doc.kind = .commercial)) = true ∧
          isLicensed w.state install.fingerprint now = true then none
      else some { w with trials := w.trials ++ [.requested] }
  | .trialAnswer index file now =>
      match w.trials[index]? with
      | some .requested => some { w with trials := w.trials.set index (trialIssued install file now) }
      | _ => none
  | .trialRename index works =>
      match w.trials[index]? with
      | some (.issued doc) =>
          if works = true then
            some { w.write (some doc) .wrote with trials := w.trials.set index (.renamed doc) }
          else some { w with trials := w.trials.set index .ended }
      | _ => none
  | .trialStamp index =>
      match w.trials[index]? with
      | some (.renamed doc) =>
          some { w with trials := w.trials.set index (.stamped doc w.fileStamp) }
      | _ => none
  | .trialActivate index =>
      match w.trials[index]? with
      | some (.stamped doc stamp) =>
          some { w with
            state := activate w.state doc stamp
            trials := w.trials.set index .ended
            log := .trial doc :: w.log }
      | _ => none
  | _ => none

def World.step (w : World) (action : Action) : Option World :=
  match action with
  | .place content => some (w.write content (.placed content))
  | .remove => some { w with store := none }
  | .trialBegin _ => w.trialStep install action
  | .trialAnswer _ _ _ => w.trialStep install action
  | .trialRename _ _ => w.trialStep install action
  | .trialStamp _ => w.trialStep install action
  | .trialActivate _ => w.trialStep install action
  | _ => w.tickStep install action

inductive Move (w : World) : Action → World → Prop
  | placed (content : Option LicenseDoc) :
      Move w (.place content) (w.write content (.placed content))
  | removed : Move w .remove { w with store := none }
  | missing (phase : w.tick = .idle) (absent : w.fileStamp = none) :
      Move w .tickStat { w with tick := .reloaded }
  | statted (stamp : Nat) (phase : w.tick = .idle) (found : w.fileStamp = some stamp) :
      Move w .tickStat { w with tick := .statted stamp }
  | unchanged (stamp : Nat) (keyLoads : Bool) (phase : w.tick = .statted stamp)
      (skipped : w.state.storeStamp = some stamp ∨ keyLoads = false) :
      Move w (.tickCompare keyLoads) { w with tick := .reloaded }
  | compared (stamp : Nat) (keyLoads : Bool) (phase : w.tick = .statted stamp)
      (changed : ¬(w.state.storeStamp = some stamp ∨ keyLoads = false)) :
      Move w (.tickCompare keyLoads) { w with tick := .reading stamp w.state }
  | read (stamp : Nat) (current : LicenseState) (phase : w.tick = .reading stamp current) :
      Move w .tickRead
        { w with
          tick := .read stamp current (w.store.bind StoreFile.content)
          log := .read :: w.log }
  | verified (stamp : Nat) (current : LicenseState) (content : Option LicenseDoc) (now : Int)
      (phase : w.tick = .read stamp current content) :
      Move w (.tickVerify now)
        { w with
          tick := .checked stamp current
            ((loadAndVerify install.fingerprint content now).map (fun doc => (doc, w.fileStamp))) }
  | adopted (stamp : Nat) (current : LicenseState) (doc : LicenseDoc) (loadedStamp : Option Nat)
      (now : Int) (phase : w.tick = .checked stamp current (some (doc, loadedStamp)))
      (better : shouldAdopt current doc install.fingerprint now = true) :
      Move w (.tickAdopt now)
        { w with
          state := activate w.state doc loadedStamp
          tick := .reloaded
          log := .adopted doc :: w.log }
  | kept (stamp : Nat) (current : LicenseState) (loaded : Option (LicenseDoc × Option Nat))
      (now : Int) (phase : w.tick = .checked stamp current loaded)
      (worse : ∀ doc loadedStamp, loaded = some (doc, loadedStamp) →
        shouldAdopt current doc install.fingerprint now = false) :
      Move w (.tickAdopt now)
        { w with state := { w.state with storeStamp := some stamp }, tick := .reloaded }
  | notDue (now : Int) (keyLoads : Bool) (attempt : Option Int) (err : Option String)
      (phase : w.tick = .reloaded) :
      Move w (.tickDue now keyLoads)
        { w with
          state := { w.state with lastHeartbeatAttempt := attempt, lastHeartbeatError := err }
          tick := .idle }
  | asked (now : Int) (keyLoads : Bool) (doc : LicenseDoc) (phase : w.tick = .reloaded)
      (active : w.state.doc = some doc)
      (due : heartbeatDue install.interval w.state now = true) :
      Move w (.tickDue now keyLoads)
        { w with
          state := { w.state with lastHeartbeatAttempt := some now }
          tick := .awaiting doc
          log := .asked doc :: w.log }
  | refreshed (asked doc : LicenseDoc) (reply : Reply) (now : Int)
      (phase : w.tick = .awaiting asked)
      (outcome : heartbeatOnce install.fingerprint reply now = .refreshed doc) :
      Move w (.answer reply now) { w with tick := .refreshed asked doc }
  | denied (asked : LicenseDoc) (reply : Reply) (now : Int) (status : Nat) (reason : String)
      (phase : w.tick = .awaiting asked)
      (outcome : heartbeatOnce install.fingerprint reply now = .denied status reason) :
      Move w (.answer reply now)
        { w with
          state := { w.state with
            revokedReason := some (toString status ++ ": " ++ reason)
            lastHeartbeatError := some reason }
          tick := .idle
          log := .denied asked now :: w.log }
  | unavailable (asked : LicenseDoc) (reply : Reply) (now : Int) (err : String)
      (phase : w.tick = .awaiting asked)
      (outcome : heartbeatOnce install.fingerprint reply now = .unavailable err) :
      Move w (.answer reply now)
        { w with state := { w.state with lastHeartbeatError := some err }, tick := .idle }
  | renamed (asked doc : LicenseDoc) (phase : w.tick = .refreshed asked doc) :
      Move w (.tickRename true) { w.write (some doc) .wrote with tick := .renamed asked doc }
  | notRenamed (asked doc : LicenseDoc) (phase : w.tick = .refreshed asked doc) :
      Move w (.tickRename false) { w with tick := .stamped asked doc none }
  | stamped (asked doc : LicenseDoc) (phase : w.tick = .renamed asked doc) :
      Move w .tickStamp { w with tick := .stamped asked doc w.fileStamp }
  | recorded (asked doc : LicenseDoc) (stamp : Option Nat)
      (phase : w.tick = .stamped asked doc stamp) :
      Move w .tickRefresh
        { w with
          state := activate w.state doc (stamp.or w.state.storeStamp)
          tick := .idle
          log := .refreshed doc :: w.log }
  | trialBegun (now : Int) :
      Move w (.trialBegin now) { w with trials := w.trials ++ [.requested] }
  | trialAnswered (index : Nat) (file : Option LicenseDoc) (now : Int)
      (phase : w.trials[index]? = some .requested) :
      Move w (.trialAnswer index file now)
        { w with trials := w.trials.set index (trialIssued install file now) }
  | trialRenamed (index : Nat) (doc : LicenseDoc) (phase : w.trials[index]? = some (.issued doc)) :
      Move w (.trialRename index true)
        { w.write (some doc) .wrote with trials := w.trials.set index (.renamed doc) }
  | trialNotRenamed (index : Nat) :
      Move w (.trialRename index false) { w with trials := w.trials.set index .ended }
  | trialStamped (index : Nat) (doc : LicenseDoc)
      (phase : w.trials[index]? = some (.renamed doc)) :
      Move w (.trialStamp index)
        { w with trials := w.trials.set index (.stamped doc w.fileStamp) }
  | trialActivated (index : Nat) (doc : LicenseDoc) (stamp : Option Nat)
      (phase : w.trials[index]? = some (.stamped doc stamp)) :
      Move w (.trialActivate index)
        { w with
          state := activate w.state doc stamp
          trials := w.trials.set index .ended
          log := .trial doc :: w.log }

variable {install} {w next : World} {action : Action}

private theorem move_adopt {stamp : Nat} {current : LicenseState}
    {loaded : Option (LicenseDoc × Option Nat)} (now : Int)
    (phase : w.tick = .checked stamp current loaded) :
    Move install w (.tickAdopt now) (w.adopt install stamp current loaded now) := by
  unfold World.adopt
  split
  · exact .kept stamp current none now phase nofun
  · rename_i doc loadedStamp
    split
    · rename_i better
      exact .adopted stamp current doc loadedStamp now phase better
    · rename_i worse
      refine .kept stamp current _ now phase ?_
      intro other otherStamp same
      cases same
      exact Bool.eq_false_iff.mpr worse

private theorem move_due (now : Int) (keyLoads : Bool) (phase : w.tick = .reloaded) :
    Move install w (.tickDue now keyLoads) (w.due install now keyLoads) := by
  unfold World.due
  split
  · exact .notDue now keyLoads w.state.lastHeartbeatAttempt w.state.lastHeartbeatError phase
  · rename_i doc active
    split
    · exact .notDue now keyLoads w.state.lastHeartbeatAttempt w.state.lastHeartbeatError phase
    · rename_i due
      dsimp only
      split
      · exact .notDue now keyLoads (some now) _ phase
      · split
        · exact .notDue now keyLoads (some now) w.state.lastHeartbeatError phase
        · exact .asked now keyLoads doc phase active (Bool.not_eq_false _ ▸ due)

private theorem move_answered {asked : LicenseDoc} (reply : Reply) (now : Int)
    (phase : w.tick = .awaiting asked) :
    Move install w (.answer reply now) (w.answered install asked reply now) := by
  unfold World.answered
  split
  · rename_i doc outcome
    exact .refreshed asked doc reply now phase outcome
  · rename_i status reason outcome
    exact .denied asked reply now status reason phase outcome
  · rename_i err outcome
    exact .unavailable asked reply now err phase outcome

theorem step_move (taken : w.step install action = some next) : Move install w action next := by
  cases action with
  | place content =>
      cases taken
      exact .placed content
  | remove =>
      cases taken
      exact .removed
  | tickStat =>
      simp only [World.step, World.tickStep] at taken
      split at taken
      · rename_i phase
        split at taken
        · rename_i absent
          cases taken
          exact .missing phase absent
        · rename_i stamp found
          cases taken
          exact .statted stamp phase found
      · cases taken
  | tickCompare keyLoads =>
      simp only [World.step, World.tickStep] at taken
      split at taken
      · rename_i stamp phase
        split at taken
        · rename_i skipped
          cases taken
          exact .unchanged stamp keyLoads phase skipped
        · rename_i changed
          cases taken
          exact .compared stamp keyLoads phase changed
      · cases taken
  | tickRead =>
      simp only [World.step, World.tickStep] at taken
      split at taken
      · rename_i stamp current phase
        cases taken
        exact .read stamp current phase
      · cases taken
  | tickVerify now =>
      simp only [World.step, World.tickStep] at taken
      split at taken
      · rename_i stamp current content phase
        cases taken
        exact .verified stamp current content now phase
      · cases taken
  | tickAdopt now =>
      simp only [World.step, World.tickStep] at taken
      split at taken
      · rename_i stamp current loaded phase
        cases taken
        exact move_adopt now phase
      · cases taken
  | tickDue now keyLoads =>
      simp only [World.step, World.tickStep] at taken
      split at taken
      · rename_i phase
        cases taken
        exact move_due now keyLoads phase
      · cases taken
  | answer reply now =>
      simp only [World.step, World.tickStep] at taken
      split at taken
      · rename_i asked phase
        cases taken
        exact move_answered reply now phase
      · cases taken
  | tickRename works =>
      simp only [World.step, World.tickStep] at taken
      split at taken
      · rename_i asked doc phase
        cases works with
        | true =>
            cases taken
            exact .renamed asked doc phase
        | false =>
            cases taken
            exact .notRenamed asked doc phase
      · cases taken
  | tickStamp =>
      simp only [World.step, World.tickStep] at taken
      split at taken
      · rename_i asked doc phase
        cases taken
        exact .stamped asked doc phase
      · cases taken
  | tickRefresh =>
      simp only [World.step, World.tickStep] at taken
      split at taken
      · rename_i asked doc stamp phase
        cases taken
        exact .recorded asked doc stamp phase
      · cases taken
  | trialBegin now =>
      simp only [World.step, World.trialStep] at taken
      split at taken
      · cases taken
      · cases taken
        exact .trialBegun now
  | trialAnswer index file now =>
      simp only [World.step, World.trialStep] at taken
      split at taken
      · rename_i phase
        cases taken
        exact .trialAnswered index file now phase
      · cases taken
  | trialRename index works =>
      simp only [World.step, World.trialStep] at taken
      split at taken
      · rename_i doc phase
        cases works with
        | true =>
            cases taken
            exact .trialRenamed index doc phase
        | false =>
            cases taken
            exact .trialNotRenamed index
      · cases taken
  | trialStamp index =>
      simp only [World.step, World.trialStep] at taken
      split at taken
      · rename_i doc phase
        cases taken
        exact .trialStamped index doc phase
      · cases taken
  | trialActivate index =>
      simp only [World.step, World.trialStep] at taken
      split at taken
      · rename_i doc stamp phase
        cases taken
        exact .trialActivated index doc stamp phase
      · cases taken

end Step

end MigrationPlatform.License
