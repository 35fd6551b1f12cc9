/-
The license server.

`revoke` and `unrevoke` are commands of the operator on the database; `trial_start`
and `heartbeat` answer installs. Each call is atomic: the handlers hold the lock
of the database over their statements. A call reads the clocks and finds the
database working as its environment says. Formatting and parsing of timestamps
belong to another library and are parameters.
-/

import MigrationPlatform.Foundation.GuardedRuns
import MigrationPlatform.Foundation.KeyedTable
import MigrationPlatform.License.Document

namespace MigrationPlatform.License

open GuardedRuns KeyedTable
open Batch (trimRunes)

/-- The functions of the timestamp library that the server stores and reads by. -/
structure Timestamps where
  toRfc3339 : Int → String
  /-- The `Display` form, which only error messages use. -/
  display : Int → String
  parseFromRfc3339 : String → Option Int
  /-- `NaiveDateTime::parse_from_str` with the format `%Y-%m-%d %H:%M:%S`. -/
  parseNaive : String → Option Int

def Timestamps.parseStoredTs (stamps : Timestamps) (text : String) : Option Int :=
  (stamps.parseFromRfc3339 text).or (stamps.parseNaive text)

structure ServerConfig where
  activationToken : String
  trialDays : Int
  /-- What `ServerConfig::validate` requires. -/
  trialDaysBound : 1 ≤ trialDays ∧ trialDays ≤ 30

structure TrialRow where
  fingerprint : String
  email : Option String
  startedAt : String
  expiresAt : String
  revokedReason : Option String := none
deriving DecidableEq, Repr

structure Revocation where
  fingerprint : String
  licensee : String
  reason : String
deriving DecidableEq, Repr

structure Database where
  trials : List TrialRow := []
  revocations : List Revocation := []
deriving DecidableEq, Repr

/-- The window of the global limit and the last request of each install, on the
monotonic clock. -/
structure Limiter where
  windowStart : Int := 0
  windowCount : Nat := 0
  perFingerprint : List (String × Int) := []
deriving DecidableEq, Repr

structure Server where
  db : Database := {}
  limiter : Limiter := {}
deriving DecidableEq, Repr

structure ServerError where
  status : Nat
  code : String
  message : String
deriving DecidableEq, Repr

def ServerError.internal : ServerError :=
  { status := 500, code := "internal_error", message := "internal error" }

/-- The clocks that one call reads, and the statement at which the database
fails it, if there is one. -/
structure Moment where
  instant : Int := 0
  verifiedAt : Int
  now : Int
  broken : Option Nat := none
deriving DecidableEq, Repr

/-! ### Revocation -/

def Database.markTrials (db : Database) (fp : String) (reason : Option String) : Database :=
  { db with
    trials := db.trials.map (fun row =>
      if row.fingerprint = fp then { row with revokedReason := reason } else row) }

def Revocation.key (row : Revocation) : String × String := (row.fingerprint, row.licensee)

def revoke (db : Database) (env : Moment) (fingerprint licensee reason : String) :
    Database × Except String Unit :=
  match normalizeFingerprint fingerprint with
  | .error message => (db, .error message)
  | .ok fp =>
      if env.broken = some 0 then (db, .error "revocations")
      else
        let fresh : Revocation := { fingerprint := fp, licensee := licensee, reason := reason }
        let added := { db with
          revocations := upsert Revocation.key fresh (fun row => { row with reason := reason })
            db.revocations }
        if env.broken = some 1 then (added, .error "trials")
        else (added.markTrials fp (some reason), .ok ())

def unrevoke (db : Database) (env : Moment) (fingerprint : String) (licensee : Option String) :
    Database × Except String Unit :=
  match normalizeFingerprint fingerprint with
  | .error message => (db, .error message)
  | .ok fp =>
      if env.broken = some 0 then (db, .error "revocations")
      else
        let removed := { db with
          revocations := db.revocations.filter (fun row =>
            decide (¬(row.fingerprint = fp ∧ licensee.all (fun l => row.licensee == l)))) }
        if env.broken = some 1 then (removed, .error "trials")
        else (removed.markTrials fp none, .ok ())

structure TrialStart where
  authorization : Option String
  fingerprint : String
  email : Option String
deriving DecidableEq, Repr

structure HeartbeatRequest where
  authorization : Option String
  fingerprint : String
  licenseFile : Option LicenseDoc
deriving DecidableEq, Repr

def bearerToken (authorization : Option String) : String :=
  match authorization with
  | none => ""
  | some header =>
      if "Bearer ".toList.isPrefixOf header.toList then String.ofList (header.toList.drop 7) else ""

def authorize (cfg : ServerConfig) (authorization : Option String) : Except ServerError Unit :=
  if bearerToken authorization = cfg.activationToken then .ok ()
  else .error { status := 401, code := "unauthorized", message := "unauthorized" }

def seconds (n : Int) : Int := n * 1000000000

def Limiter.remember (limiter : Limiter) (now : Int) (fp : String) : Limiter :=
  let entries := (fp, now) :: limiter.perFingerprint.filter (fun entry => entry.1 != fp)
  { limiter with
    perFingerprint := if entries.length > 10000 then
        entries.filter (fun entry => decide (now - entry.2 < seconds 300))
      else entries }

def rateLimit (limiter : Limiter) (now : Int) (fp : String) : Limiter × Bool :=
  let opened := if now - limiter.windowStart ≥ seconds 1 then
      { limiter with windowStart := now, windowCount := 0 }
    else limiter
  if opened.windowCount ≥ 20 then (opened, false)
  else
    let counted := { opened with windowCount := opened.windowCount + 1 }
    match counted.perFingerprint.lookup fp with
    | some prev =>
        if now - prev < seconds 5 then (counted, false)
        else (counted.remember now fp, true)
    | none => (counted.remember now fp, true)

def slowDown : ServerError := { status := 429, code := "rate_limited", message := "slow down" }

structure TrialResponse where
  licenseFile : LicenseDoc
  expiresAt : Int
  reused : Bool
deriving DecidableEq, Repr

def trialDoc (fp licensee : String) (expiresAt now : Int) : LicenseDoc :=
  { licensee := licensee
    expiresAt := expiresAt
    features := ["core"]
    maxSeats := some 5
    issuedAt := some now
    kind := .trial
    fingerprint := some fp
    requiresHeartbeat := true }

def contactEmail (email : Option String) : Except ServerError String :=
  match email.filter (fun e => !(trimRunes e.toList).isEmpty) with
  | none =>
      .error { status := 400, code := "email_required",
               message := "a contact email is required to start a trial" }
  | some e =>
      match validateTrialEmail e with
      | .error message => .error { status := 400, code := "invalid_email", message := message }
      | .ok email => .ok email

def requestFingerprint (raw : String) : Except ServerError String :=
  match normalizeFingerprint raw with
  | .error message => .error { status := 400, code := "bad_request", message := message }
  | .ok fp => .ok fp

def startTrial (cfg : ServerConfig) (stamps : Timestamps) (env : Moment) (fp email : String)
    (db : Database) : Database × Except ServerError TrialResponse :=
  if env.broken = some 0 then (db, .error .internal)
  else
    match lookup TrialRow.fingerprint fp db.trials with
    | some row =>
        match stamps.parseStoredTs row.expiresAt with
        | none => (db, .error .internal)
        | some expiresAt =>
            match row.revokedReason with
            | some reason =>
                (db, .error { status := 403, code := "revoked",
                              message := "trial for this install was revoked: " ++ reason })
            | none =>
                if expiresAt ≤ env.now then
                  (db, .error { status := 402, code := "trial_expired",
                                message := "trial for this install already expired at " ++
                                  stamps.display expiresAt })
                else
                  match row.email with
                  | some kept =>
                      (db, .ok { licenseFile := trialDoc fp kept expiresAt env.now
                                 expiresAt := expiresAt, reused := true })
                  | none =>
                      if env.broken = some 1 then (db, .error .internal)
                      else
                        ({ db with
                           trials := db.trials.map (fun row =>
                             if row.fingerprint = fp then { row with email := some email }
                             else row) },
                          .ok { licenseFile := trialDoc fp email expiresAt env.now
                                expiresAt := expiresAt, reused := true })
    | none =>
        let expiresAt := env.now + days cfg.trialDays
        if env.broken = some 1 then (db, .error .internal)
        else
          ({ db with
             trials := db.trials ++ [{ fingerprint := fp, email := some email
                                       startedAt := stamps.toRfc3339 env.now
                                       expiresAt := stamps.toRfc3339 expiresAt }] },
            .ok { licenseFile := trialDoc fp email expiresAt env.now
                  expiresAt := expiresAt, reused := false })

/-- The statements find no trial, or one that is neither marked as revoked nor
expired. -/
def Startable (stamps : Timestamps) (env : Moment) (db : Database) (fp : String) : Prop :=
  env.broken ≠ some 0 ∧
    match lookup TrialRow.fingerprint fp db.trials with
    | none => env.broken ≠ some 1
    | some row =>
        row.revokedReason = none ∧
          (∃ expiresAt, stamps.parseStoredTs row.expiresAt = some expiresAt ∧
            env.now < expiresAt) ∧
          (row.email = none → env.broken ≠ some 1)

/-- The ways `startTrial` ends. A trial that is used again keeps its row, up to
the e-mail. -/
inductive TrialOutcome (cfg : ServerConfig) (stamps : Timestamps) (env : Moment)
    (fp email : String) (db : Database) : Database × Except ServerError TrialResponse → Prop
  | refused (err : ServerError) (barred : ¬Startable stamps env db fp) :
      TrialOutcome cfg stamps env fp email db (db, .error err)
  | fresh (absent : lookup TrialRow.fingerprint fp db.trials = none)
      (startable : Startable stamps env db fp) :
      TrialOutcome cfg stamps env fp email db
        ({ db with
           trials := db.trials ++
             [{ fingerprint := fp, email := some email
                startedAt := stamps.toRfc3339 env.now
                expiresAt := stamps.toRfc3339 (env.now + days cfg.trialDays) }] },
          .ok { licenseFile := trialDoc fp email (env.now + days cfg.trialDays) env.now
                expiresAt := env.now + days cfg.trialDays, reused := false })
  | reused (row : TrialRow) (licensee : String) (expiresAt : Int) (trials : List TrialRow)
      (found : lookup TrialRow.fingerprint fp db.trials = some row)
      (stored : stamps.parseStoredTs row.expiresAt = some expiresAt)
      (alive : env.now < expiresAt)
      (kept : ∀ other, (lookup TrialRow.fingerprint other trials).map TrialRow.expiresAt =
        (lookup TrialRow.fingerprint other db.trials).map TrialRow.expiresAt)
      (startable : Startable stamps env db fp) :
      TrialOutcome cfg stamps env fp email db
        ({ db with trials := trials },
          .ok { licenseFile := trialDoc fp licensee expiresAt env.now
                expiresAt := expiresAt, reused := true })

theorem lookup_expiresAt_map {change : TrialRow → TrialRow}
    (named : ∀ row, (change row).fingerprint = row.fingerprint)
    (dated : ∀ row, (change row).expiresAt = row.expiresAt) (fp : String) (rows : List TrialRow) :
    (lookup TrialRow.fingerprint fp (rows.map change)).map TrialRow.expiresAt =
      (lookup TrialRow.fingerprint fp rows).map TrialRow.expiresAt := by
  rw [lookup_map named, Option.map_map]
  congr 1
  funext row
  exact dated row

theorem startTrial_outcome (cfg : ServerConfig) (stamps : Timestamps) (env : Moment)
    (fp email : String) (db : Database) :
    TrialOutcome cfg stamps env fp email db (startTrial cfg stamps env fp email db) := by
  unfold startTrial
  by_cases first : env.broken = some 0
  · rw [if_pos first]
    exact .refused _ (fun startable => startable.1 first)
  · rw [if_neg first]
    cases found : lookup TrialRow.fingerprint fp db.trials with
    | none =>
        by_cases second : env.broken = some 1
        · rw [if_pos second]
          refine .refused _ ?_
          rintro ⟨_, works⟩
          rw [found] at works
          exact works second
        · rw [if_neg second]
          refine .fresh found ⟨first, ?_⟩
          rw [found]
          exact second
    | some row =>
        have barred : ¬(row.revokedReason = none ∧
            (∃ expiresAt, stamps.parseStoredTs row.expiresAt = some expiresAt ∧
              env.now < expiresAt) ∧ (row.email = none → env.broken ≠ some 1)) →
            ¬Startable stamps env db fp := by
          rintro held ⟨_, finds⟩
          rw [found] at finds
          exact held finds
        dsimp only
        cases stored : stamps.parseStoredTs row.expiresAt with
        | none =>
            refine .refused _ (barred ?_)
            rintro ⟨_, ⟨expiresAt, parsed, _⟩, _⟩
            rw [stored] at parsed
            cases parsed
        | some expiresAt =>
            dsimp only
            cases marked : row.revokedReason with
            | some reason =>
                refine .refused _ (barred ?_)
                rintro ⟨unmarked, _⟩
                rw [marked] at unmarked
                cases unmarked
            | none =>
                by_cases past : expiresAt ≤ env.now
                · simp only [if_pos past]
                  refine .refused _ (barred ?_)
                  rintro ⟨_, ⟨parsed, again, alive⟩, _⟩
                  rw [stored] at again
                  cases again
                  omega
                · simp only [if_neg past]
                  have alive : env.now < expiresAt := by omega
                  have startable : (row.email = none → env.broken ≠ some 1) →
                      Startable stamps env db fp := by
                    intro works
                    refine ⟨first, ?_⟩
                    rw [found]
                    exact ⟨marked, ⟨expiresAt, stored, alive⟩, works⟩
                  cases contact : row.email with
                  | some kept =>
                      refine .reused row kept expiresAt db.trials found stored alive
                        (fun _ => rfl) (startable ?_)
                      rw [contact]
                      nofun
                  | none =>
                      by_cases second : env.broken = some 1
                      · simp only [if_pos second]
                        refine .refused _ (barred ?_)
                        rintro ⟨_, _, works⟩
                        exact works contact second
                      · simp only [if_neg second]
                        refine .reused row email expiresAt _ found stored alive ?_
                          (startable (fun _ => second))
                        intro other
                        apply lookup_expiresAt_map
                        · intro row
                          split <;> rfl
                        · intro row
                          split <;> rfl

def trialStart (cfg : ServerConfig) (stamps : Timestamps) (env : Moment) (req : TrialStart)
    (server : Server) : Server × Except ServerError TrialResponse :=
  match authorize cfg req.authorization with
  | .error err => (server, .error err)
  | .ok () =>
      match requestFingerprint req.fingerprint with
      | .error err => (server, .error err)
      | .ok fp =>
          match contactEmail req.email with
          | .error err => (server, .error err)
          | .ok email =>
              match rateLimit server.limiter env.instant fp with
              | (limiter, false) => ({ server with limiter := limiter }, .error slowDown)
              | (limiter, true) =>
                  let started := startTrial cfg stamps env fp email server.db
                  ({ db := started.1, limiter := limiter }, started.2)

structure TrialStart.Admitted (req : TrialStart) (cfg : ServerConfig) (env : Moment)
    (server : Server) (fp email : String) : Prop where
  authorized : authorize cfg req.authorization = .ok ()
  named : requestFingerprint req.fingerprint = .ok fp
  contact : contactEmail req.email = .ok email
  paced : (rateLimit server.limiter env.instant fp).2 = true

theorem trialStart_cases (cfg : ServerConfig) (stamps : Timestamps) (env : Moment)
    (req : TrialStart) (server : Server) :
    (∃ fp email, req.Admitted cfg env server fp email ∧
      (trialStart cfg stamps env req server).1.db = (startTrial cfg stamps env fp email server.db).1 ∧
      (trialStart cfg stamps env req server).2 =
        (startTrial cfg stamps env fp email server.db).2) ∨
    ((∀ fp email, ¬req.Admitted cfg env server fp email) ∧
      (trialStart cfg stamps env req server).1.db = server.db ∧
      ∃ err, (trialStart cfg stamps env req server).2 = .error err) := by
  unfold trialStart
  cases authorized : authorize cfg req.authorization with
  | error err =>
      refine .inr ⟨?_, rfl, err, rfl⟩
      intro fp email admitted
      rw [admitted.authorized] at authorized
      cases authorized
  | ok done =>
      cases named : requestFingerprint req.fingerprint with
      | error err =>
          refine .inr ⟨?_, rfl, err, rfl⟩
          intro fp email admitted
          rw [admitted.named] at named
          cases named
      | ok fp =>
          cases contact : contactEmail req.email with
          | error err =>
              refine .inr ⟨?_, rfl, err, rfl⟩
              intro other email admitted
              rw [admitted.contact] at contact
              cases contact
          | ok email =>
              cases paced : rateLimit server.limiter env.instant fp with
              | mk limiter passes =>
                  simp only [paced]
                  cases passes with
                  | true =>
                      refine .inl ⟨fp, email, ⟨authorized, named, contact, ?_⟩, rfl, rfl⟩
                      rw [paced]
                  | false =>
                      refine .inr ⟨?_, rfl, slowDown, rfl⟩
                      intro other contactOf admitted
                      have same : other = fp := by
                        have both := admitted.named.symm.trans named
                        injection both
                      have passes := admitted.paced
                      rw [same, paced] at passes
                      cases passes

/-! ### Heartbeats -/

structure HeartbeatResponse where
  licenseFile : LicenseDoc
  expiresAt : Int
  issuedAt : Int
deriving DecidableEq, Repr

def attested (doc : LicenseDoc) (now : Int) : HeartbeatResponse :=
  { licenseFile := { doc with issuedAt := some now, requiresHeartbeat := true }
    expiresAt := doc.expiresAt
    issuedAt := now }

/-- What `heartbeat` answers for a verified document, under the lock. Its one
UPDATE writes columns that nothing reads. -/
def attest (stamps : Timestamps) (env : Moment) (fp : String) (doc : LicenseDoc)
    (db : Database) : Except ServerError HeartbeatResponse :=
  if env.broken = some 0 then .error .internal
  else
    match db.revocations.find? (fun row =>
      decide (row.fingerprint = fp ∧ (row.licensee = doc.licensee ∨ row.licensee = "*"))) with
    | some row =>
        .error { status := 403, code := "revoked", message := "license revoked: " ++ row.reason }
    | none =>
        match doc.kind with
        | .commercial => .ok (attested doc env.now)
        | .trial =>
            if env.broken = some 1 then .error .internal
            else
              match lookup TrialRow.fingerprint fp db.trials with
              | none => .ok (attested doc env.now)
              | some row =>
                  match row.revokedReason with
                  | some reason =>
                      .error { status := 403, code := "revoked",
                               message := "trial revoked: " ++ reason }
                  | none =>
                      match stamps.parseStoredTs row.expiresAt with
                      | none => .error .internal
                      | some serverExp =>
                          if serverExp ≤ env.now then
                            .error { status := 402, code := "trial_expired",
                                     message := "trial expired at " ++ stamps.display serverExp }
                          else if env.broken = some 2 then .error .internal
                          else .ok (attested { doc with expiresAt := serverExp } env.now)

theorem attest_ok {stamps : Timestamps} {env : Moment} {fp : String} {doc : LicenseDoc}
    {db : Database} {response : HeartbeatResponse}
    (answered : attest stamps env fp doc db = .ok response) :
    (∀ row ∈ db.revocations,
      ¬(row.fingerprint = fp ∧ (row.licensee = doc.licensee ∨ row.licensee = "*"))) ∧
    ∃ expiresAt,
      response.licenseFile =
        { doc with expiresAt := expiresAt, issuedAt := some env.now, requiresHeartbeat := true } ∧
      (doc.kind = .trial →
        lookup TrialRow.fingerprint fp db.trials = none ∨
        ∃ row, lookup TrialRow.fingerprint fp db.trials = some row ∧
          stamps.parseStoredTs row.expiresAt = some expiresAt ∧ env.now < expiresAt) := by
  unfold attest at answered
  split at answered
  · cases answered
  · split at answered
    · cases answered
    · rename_i unlisted
      have free := List.find?_eq_none.mp unlisted
      refine ⟨fun row member listed => free row member (decide_eq_true listed), ?_⟩
      split at answered
      · rename_i commercial
        cases answered
        refine ⟨doc.expiresAt, rfl, ?_⟩
        rw [commercial]
        nofun
      · split at answered
        · cases answered
        · split at answered
          · rename_i absent
            cases answered
            exact ⟨doc.expiresAt, rfl, fun _ => .inl absent⟩
          · rename_i row found
            split at answered
            · cases answered
            · split at answered
              · cases answered
              · rename_i serverExp stored
                split at answered
                · cases answered
                · split at answered
                  · cases answered
                  · rename_i ahead _works
                    cases answered
                    refine ⟨serverExp, rfl, fun _ => .inr ⟨row, found, stored, ?_⟩⟩
                    omega

def heartbeat (cfg : ServerConfig) (stamps : Timestamps) (env : Moment) (req : HeartbeatRequest)
    (server : Server) : Server × Except ServerError HeartbeatResponse :=
  match authorize cfg req.authorization with
  | .error err => (server, .error err)
  | .ok () =>
      match requestFingerprint req.fingerprint with
      | .error err => (server, .error err)
      | .ok fp =>
          match rateLimit server.limiter env.instant fp with
          | (limiter, false) => ({ server with limiter := limiter }, .error slowDown)
          | (limiter, true) =>
              ({ server with limiter := limiter },
                match verifyLicense req.licenseFile env.verifiedAt with
                | .error (.expired licensee expiresAt) =>
                    .error { status := 402, code := "expired",
                             message := "license for " ++ licensee.quote ++ " expired at " ++
                               stamps.display expiresAt }
                | .error .invalid =>
                    .error { status := 400, code := "invalid_license",
                             message := "presented license is not valid" }
                | .ok doc =>
                    if doc.fingerprint ≠ some fp then
                      .error { status := 400, code := "fingerprint_mismatch",
                               message := "license is not bound to the presenting install" }
                    else attest stamps env fp doc server.db)

theorem heartbeat_db (cfg : ServerConfig) (stamps : Timestamps) (env : Moment)
    (req : HeartbeatRequest) (server : Server) :
    (heartbeat cfg stamps env req server).1.db = server.db := by
  unfold heartbeat
  split
  · rfl
  · split
    · rfl
    · split <;> rfl

theorem heartbeat_ok {cfg : ServerConfig} {stamps : Timestamps} {env : Moment}
    {req : HeartbeatRequest} {server : Server} {response : HeartbeatResponse}
    (answered : (heartbeat cfg stamps env req server).2 = .ok response) :
    ∃ fp doc, req.licenseFile = some doc ∧ doc.fingerprint = some fp ∧
      attest stamps env fp doc server.db = .ok response := by
  unfold heartbeat at answered
  split at answered
  · cases answered
  · split at answered
    · cases answered
    · rename_i fp _named
      split at answered
      · cases answered
      · simp only at answered
        split at answered
        · cases answered
        · cases answered
        · rename_i doc verified
          split at answered
          · cases answered
          · rename_i bound
            exact ⟨fp, doc, (verifyLicense_ok verified).1, not_ne_iff.mp bound, answered⟩

inductive Call
  | revoke (fingerprint licensee reason : String) (env : Moment)
  | unrevoke (fingerprint : String) (licensee : Option String) (env : Moment)
  | trialStart (req : TrialStart) (env : Moment)
  | heartbeat (req : HeartbeatRequest) (env : Moment)
deriving DecidableEq, Repr

def Call.env : Call → Moment
  | .revoke _ _ _ env => env
  | .unrevoke _ _ env => env
  | .trialStart _ env => env
  | .heartbeat _ env => env

def Server.call (cfg : ServerConfig) (stamps : Timestamps) (server : Server) :
    Call → Server × Option LicenseDoc
  | .revoke fingerprint licensee reason env =>
      ({ server with db := (License.revoke server.db env fingerprint licensee reason).1 }, none)
  | .unrevoke fingerprint licensee env =>
      ({ server with db := (License.unrevoke server.db env fingerprint licensee).1 }, none)
  | .trialStart req env =>
      let answered := License.trialStart cfg stamps env req server
      (answered.1, answered.2.toOption.map TrialResponse.licenseFile)
  | .heartbeat req env =>
      let answered := License.heartbeat cfg stamps env req server
      (answered.1, answered.2.toOption.map HeartbeatResponse.licenseFile)

structure Signing where
  call : Call
  signed : Option LicenseDoc
deriving DecidableEq, Repr

structure Service where
  server : Server := {}
  past : List Signing := []
deriving DecidableEq, Repr

def Service.step (cfg : ServerConfig) (stamps : Timestamps) (service : Service) (call : Call) :
    Option Service :=
  let answered := service.server.call cfg stamps call
  some { server := answered.1, past := service.past ++ [{ call := call, signed := answered.2 }] }

def newYear : Int := seconds 1767225600

def januaryStamps : Timestamps where
  toRfc3339 instant :=
    if instant = newYear then "2026-01-01T00:00:00+00:00"
    else if instant = newYear + days 10 then "2026-01-11T00:00:00+00:00"
    else ""
  display instant := if instant = newYear + days 10 then "2026-01-11 00:00:00 UTC" else ""
  parseFromRfc3339 text :=
    if text = "2026-01-01T00:00:00+00:00" then some newYear
    else if text = "2026-01-11T00:00:00+00:00" then some (newYear + days 10)
    else none
  parseNaive _ := none

def tenDays : ServerConfig where
  activationToken := "0123456789abcdef0123456789abcdef"
  trialDays := 10
  trialDaysBound := ⟨by decide, by decide⟩

def plantFingerprint : String := "00112233445566778899aabbccddeeff"

def plantStart (now : Int) : Call :=
  .trialStart
    { authorization := some "Bearer 0123456789abcdef0123456789abcdef"
      fingerprint := plantFingerprint
      email := some "lead@example.com" }
    { instant := now, verifiedAt := now, now := now }

end MigrationPlatform.License
