/-
Schedules in two stores: the rows of the API, and the schedules of Temporal
behind the bridge.

A call of the API changes both, one after the other, and may stop between. How
each request and each statement ends is an input of the call: it is done, it is
refused, or its reply is lost when it has taken effect. Temporal keeps what the
bridge sends. The bridge is configured, and its schedules are named by the ids
of their rows.
-/

import MigrationPlatform.Connectors.Ingest
import MigrationPlatform.Schedules.Intervals

namespace MigrationPlatform.Schedules

open MigrationPlatform.Connectors (Value Data getKey asStr)
open MigrationPlatform.Batch (isSpaceRune trimSpace)

/-- The `spec_json` of a row: an object with the one key or the other. -/
inductive Spec
  | cron (text : String)
  | every (text : String)
deriving DecidableEq, Repr

/-- What `cron::Schedule::try_from` and `humantime::parse_duration` accept, the
latter with the duration in nanoseconds. -/
structure Crates where
  cronSchedule : String → Bool
  humantime : String → Option Nat

def fieldCount (text : String) : Nat :=
  (text.toList.splitOnP isSpaceRune).countP (fun word => !word.isEmpty)

def cronForValidation (expr : String) : Except String String :=
  let trimmed := trimSpace expr
  let fields := fieldCount trimmed
  if fields = 5 then .ok ("0 " ++ trimmed)
  else if fields = 6 ∨ fields = 7 then .ok trimmed
  else
    .error ("invalid cron: expected 5-field POSIX (m h dom mon dow) or 6/7-field with seconds, got " ++
      toString fields ++ " fields")

def normaliseSpec (crates : Crates) (raw : Value) : Except String Spec :=
  match getKey raw "cron" with
  | some value =>
      match asStr value with
      | none => .error "cron missing"
      | some cron =>
          match cronForValidation (trimSpace cron) with
          | .error problem => .error problem
          | .ok forParse =>
              if crates.cronSchedule forParse = true then .ok (.cron (trimSpace cron))
              else .error "invalid cron"
  | none =>
      match (getKey raw "every").bind asStr with
      | some interval =>
          if (crates.humantime interval).isSome = true then .ok (.every interval)
          else .error "invalid interval"
      | none => .error "spec must contain 'cron' or 'every'"

inductive Overlap
  | skip
  | bufferOne
  | bufferAll
  | cancelOther
  | allowAll
deriving DecidableEq, Repr

def Overlap.text : Overlap → String
  | .skip => "skip"
  | .bufferOne => "buffer_one"
  | .bufferAll => "buffer_all"
  | .cancelOther => "cancel_other"
  | .allowAll => "allow_all"

def overlapOf (text : String) : Option Overlap :=
  [Overlap.skip, .bufferOne, .bufferAll, .cancelOther, .allowAll].find?
    (fun overlap => overlap.text == text)

structure ScheduleRequest where
  cron : String := ""
  every : String := ""
  timezone : String := ""
  overlapPolicy : String := ""
  catchupWindowSeconds : Int := 0
  paused : Bool := false

def mergeSpec (body : ScheduleRequest) : Spec → ScheduleRequest
  | .cron text => { body with cron := text }
  | .every text => { body with every := text }

inductive Calendar
  | cron (text : String)
  | interval (every : Int)
deriving DecidableEq, Repr

structure TemporalSpec where
  calendar : Calendar
  timeZoneName : String
deriving DecidableEq, Repr

structure TemporalSchedule where
  spec : TemporalSpec
  overlap : Overlap
  catchupWindow : Int
  paused : Bool
deriving DecidableEq, Repr

def overlapPolicy (s : String) : Overlap :=
  if s = "buffer_one" then .bufferOne
  else if s = "buffer_all" then .bufferAll
  else if s = "cancel_other" then .cancelOther
  else if s = "allow_all" then .allowAll
  else .skip

def scheduleSpec (req : ScheduleRequest) :
    Option TemporalSpec :=
  if req.cron ≠ "" then some { calendar := .cron req.cron, timeZoneName := req.timezone }
  else if req.every ≠ "" then
    (parseDuration req.every).map
      (fun d => { calendar := .interval d, timeZoneName := req.timezone })
  else none

/-- How a request to Temporal or a statement to the database ends. A `lost` one
has taken effect and is reported as failed. -/
inductive Outcome
  | done
  | refused
  | lost
deriving DecidableEq, Repr

def attempt {Store : Type} (outcome : Outcome) (before after : Store) : Store × Bool :=
  match outcome with
  | .done => (after, true)
  | .refused => (before, false)
  | .lost => (after, false)

/-- `createSchedule` of the bridge. Temporal refuses an id that it has. -/
def bridgeCreate (outcome : Outcome) (req : ScheduleRequest)
    (temporal : Option TemporalSchedule) : Option TemporalSchedule × Bool :=
  match scheduleSpec req, temporal with
  | none, _ => (temporal, false)
  | some _, some _ => (temporal, false)
  | some spec, none =>
      attempt outcome none
        (some
          { spec := spec
            overlap := overlapPolicy req.overlapPolicy
            catchupWindow := req.catchupWindowSeconds * 1000000000
            paused := req.paused })

/-- `updateSchedule` of the bridge: the whole spec is replaced, and nothing else. -/
def bridgeUpdate (outcome : Outcome) (req : ScheduleRequest)
    (temporal : Option TemporalSchedule) : Option TemporalSchedule × Bool :=
  match scheduleSpec req, temporal with
  | none, _ => (temporal, false)
  | some _, none => (none, false)
  | some spec, some schedule => attempt outcome (some schedule) (some { schedule with spec := spec })

def bridgePause (paused : Bool) (outcome : Outcome) (temporal : Option TemporalSchedule) :
    Option TemporalSchedule × Bool :=
  match temporal with
  | none => (none, false)
  | some schedule => attempt outcome (some schedule) (some { schedule with paused := paused })

structure Row where
  spec : Spec
  timezone : String
  overlap : Overlap
  catchupWindowSeconds : Int
  enabled : Bool
deriving DecidableEq, Repr

structure Slot where
  row : Option Row := none
  temporal : Option TemporalSchedule := none
deriving DecidableEq, Repr

inductive ApiError
  | notFound
  | forbidden
  | licenseRequired
  | badRequest (message : String)
  | conflict
  | database
  | external
deriving DecidableEq, Repr

structure CreateSchedule where
  spec : Value
  timezone : Option String := none
  overlapPolicy : Option String := none
  catchupWindowSeconds : Option Int := none
  enabled : Option Bool := none

/-- What a create call meets: the checks on the caller and on what the request
refers to, and the ends of the requests and statements. -/
structure CreateEnv where
  mayEdit : Bool := true
  licensed : Bool := true
  connectorFound : Bool := true
  templateOwned : Bool := true
  nameTaken : Bool := false
  insert : Outcome := .done
  bridge : Outcome := .done
  rollback : Outcome := .done
  pause : Outcome := .done
  audit : Outcome := .done

def createRow (crates : Crates) (req : CreateSchedule) (env : CreateEnv) : Except ApiError Row :=
  if env.mayEdit = false then .error .forbidden
  else if env.licensed = false then .error .licenseRequired
  else
    match normaliseSpec crates req.spec with
    | .error problem => .error (.badRequest problem)
    | .ok spec =>
        match overlapOf (req.overlapPolicy.getD "skip") with
        | none =>
            .error (.badRequest ("invalid overlap_policy " ++ req.overlapPolicy.getD "skip"))
        | some overlap =>
            if env.connectorFound = false then .error (.badRequest "connector not found")
            else if env.templateOwned = false then .error (.badRequest "template not found")
            else if env.nameTaken = true then .error .conflict
            else
              .ok
                { spec := spec
                  timezone := req.timezone.getD "UTC"
                  overlap := overlap
                  catchupWindowSeconds := max (req.catchupWindowSeconds.getD 3600) 0
                  enabled := req.enabled.getD true }

def createBody (row : Row) : ScheduleRequest :=
  mergeSpec
    { timezone := row.timezone
      overlapPolicy := row.overlap.text
      catchupWindowSeconds := row.catchupWindowSeconds }
    row.spec

def createSchedule (crates : Crates) (req : CreateSchedule)
    (env : CreateEnv) (slot : Slot) : Slot × Except ApiError Row :=
  match createRow crates req env with
  | .error err => (slot, .error err)
  | .ok row =>
      match attempt env.insert slot.row (some row) with
      | (stored, false) => ({ slot with row := stored }, .error .database)
      | (stored, true) =>
          match bridgeCreate env.bridge (createBody row) slot.temporal with
          | (temporal, false) =>
              -- The result of the rollback is ignored.
              ({ row := (attempt env.rollback stored none).1, temporal := temporal },
                .error .external)
          | (temporal, true) =>
              -- So is that of the pause.
              let paused := if row.enabled then temporal else (bridgePause true env.pause temporal).1
              ({ row := stored, temporal := paused },
                if env.audit = .done then .ok row else .error .database)

structure UpdateSchedule where
  spec : Option Value := none
  enabled : Option Bool := none
  catchupWindowSeconds : Option Int := none
  timezone : Option String := none
  overlapPolicy : Option String := none

structure UpdateEnv where
  mayEdit : Bool := true
  licensed : Bool := true
  fetched : Bool := true
  spec : Outcome := .done
  enabled : Outcome := .done
  row : Outcome := .done
  audit : Outcome := .done

def updateSpec (crates : Crates) (asked : Option Value)
    (outcome : Outcome) (existing : Row) (temporal : Option TemporalSchedule) :
    Option TemporalSchedule × Except ApiError Spec :=
  match asked with
  | none => (temporal, .ok existing.spec)
  | some raw =>
      match normaliseSpec crates raw with
      | .error problem => (temporal, .error (.badRequest problem))
      | .ok spec =>
          match bridgeUpdate outcome (mergeSpec {} spec) temporal with
          | (after, false) => (after, .error .external)
          | (after, true) => (after, .ok spec)

def updateEnabled (asked : Option Bool) (outcome : Outcome) (existing : Row)
    (temporal : Option TemporalSchedule) : Option TemporalSchedule × Except ApiError Bool :=
  match asked with
  | none => (temporal, .ok existing.enabled)
  | some enabled =>
      match bridgePause (!enabled) outcome temporal with
      | (after, false) => (after, .error .external)
      | (after, true) => (after, .ok enabled)

def updateOverlap (asked : Option String) (existing : Row) : Except ApiError Overlap :=
  match asked with
  | none => .ok existing.overlap
  | some text =>
      match overlapOf text with
      | none => .error (.badRequest ("invalid overlap_policy " ++ text))
      | some overlap => .ok overlap

def updateSchedule (crates : Crates) (req : UpdateSchedule)
    (env : UpdateEnv) (slot : Slot) : Slot × Except ApiError Row :=
  if env.mayEdit = false then (slot, .error .forbidden)
  else if req.enabled = some true ∧ env.licensed = false then (slot, .error .licenseRequired)
  else if env.fetched = false then (slot, .error .database)
  else
    match slot.row with
    | none => (slot, .error .notFound)
    | some existing =>
        match updateSpec crates req.spec env.spec existing slot.temporal with
        | (temporal, .error err) => ({ slot with temporal := temporal }, .error err)
        | (temporal, .ok spec) =>
            match updateEnabled req.enabled env.enabled existing temporal with
            | (temporal, .error err) => ({ slot with temporal := temporal }, .error err)
            | (temporal, .ok enabled) =>
                match updateOverlap req.overlapPolicy existing with
                | .error err => ({ slot with temporal := temporal }, .error err)
                | .ok overlap =>
                    let row : Row :=
                      { spec := spec
                        timezone := req.timezone.getD existing.timezone
                        overlap := overlap
                        catchupWindowSeconds :=
                          (req.catchupWindowSeconds.map (fun c => max c 0)).getD
                            existing.catchupWindowSeconds
                        enabled := enabled }
                    match attempt env.row (some existing) (some row) with
                    | (stored, false) => ({ row := stored, temporal := temporal }, .error .database)
                    | (stored, true) =>
                        ({ row := stored, temporal := temporal },
                          if env.audit = .done then .ok row else .error .database)

structure PauseEnv where
  mayOperate : Bool := true
  licensed : Bool := true
  fetched : Bool := true
  bridge : Outcome := .done
  row : Outcome := .done
  audit : Outcome := .done

/-- What `pause_schedule` and `resume_schedule` do behind their checks. -/
def setEnabled (enabled : Bool) (env : PauseEnv) (slot : Slot) : Slot × Except ApiError Unit :=
  if env.fetched = false then (slot, .error .database)
  else
    match slot.row with
    | none => (slot, .error .notFound)
    | some existing =>
        match bridgePause (!enabled) env.bridge slot.temporal with
        | (temporal, false) => ({ slot with temporal := temporal }, .error .external)
        | (temporal, true) =>
            match attempt env.row (some existing) (some { existing with enabled := enabled }) with
            | (stored, false) => ({ row := stored, temporal := temporal }, .error .database)
            | (stored, true) =>
                ({ row := stored, temporal := temporal },
                  if env.audit = .done then .ok () else .error .database)

def pauseSchedule (env : PauseEnv) (slot : Slot) : Slot × Except ApiError Unit :=
  if env.mayOperate = false then (slot, .error .forbidden) else setEnabled false env slot

/-- Resuming needs a license; pausing does not. -/
def resumeSchedule (env : PauseEnv) (slot : Slot) : Slot × Except ApiError Unit :=
  if env.mayOperate = false then (slot, .error .forbidden)
  else if env.licensed = false then (slot, .error .licenseRequired)
  else setEnabled true env slot

/-! ### Runs -/

inductive Call
  | create (req : CreateSchedule) (env : CreateEnv)
  | update (id : Nat) (req : UpdateSchedule) (env : UpdateEnv)
  | pause (id : Nat) (env : PauseEnv)
  | resume (id : Nat) (env : PauseEnv)

structure Store where
  slots : Nat → Slot := fun _ => {}
  next : Nat := 0

def Store.set (store : Store) (id : Nat) (slot : Slot) : Store :=
  { store with slots := fun other => if other = id then slot else store.slots other }

def call (crates : Crates) (store : Store) : Call → Store
  | .create req env =>
      { store.set store.next
          (createSchedule crates req env (store.slots store.next)).1 with
        next := store.next + 1 }
  | .update id req env =>
      store.set id (updateSchedule crates req env (store.slots id)).1
  | .pause id env => store.set id (pauseSchedule env (store.slots id)).1
  | .resume id env => store.set id (resumeSchedule env (store.slots id)).1

end MigrationPlatform.Schedules
