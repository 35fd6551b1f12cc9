/-
Whether a revocation is effective at the license server.

A revocation stands in the table of revocations, which every heartbeat reads,
and as a mark on the row of the trial, which is all that `trial_start` reads. The
mark is missing where the trial starts after the revocation, and it is cleared by
an `unrevoke` of any licensee.
-/

import MigrationPlatform.License.Server

namespace MigrationPlatform.License

open GuardedRuns KeyedTable

def Call.revokes (fp licensee : String) : Call → Option Bool
  | .revoke raw revoked _ env =>
      if normalizeFingerprint raw = .ok fp ∧ revoked = licensee ∧ env.broken ≠ some 0 then
        some true
      else none
  | .unrevoke raw freed env =>
      if normalizeFingerprint raw = .ok fp ∧ freed.all (fun l => licensee == l) = true ∧
          env.broken ≠ some 0 then
        some false
      else none
  | .trialStart _ _ => none
  | .heartbeat _ _ => none

def inForce (past : List Signing) (fp licensee : String) : Bool :=
  past.foldl (fun held signing => (signing.call.revokes fp licensee).getD held) false

private theorem inForce_append (past : List Signing) (signing : Signing) (fp licensee : String) :
    inForce (past ++ [signing]) fp licensee =
      (signing.call.revokes fp licensee).getD (inForce past fp licensee) := by
  unfold inForce
  rw [List.foldl_append]
  rfl

def Recorded (service : Service) : Prop :=
  ∀ fp licensee, (fp, licensee) ∈ service.server.db.revocations.map Revocation.key ↔
    inForce service.past fp licensee = true

theorem markTrials_revocations (db : Database) (fp : String) (reason : Option String) :
    (db.markTrials fp reason).revocations = db.revocations := rfl

theorem mem_revoke (db : Database) (env : Moment) (raw licensee reason fp other : String) :
    (fp, other) ∈ (revoke db env raw licensee reason).1.revocations.map Revocation.key ↔
      (normalizeFingerprint raw = .ok fp ∧ licensee = other ∧ env.broken ≠ some 0) ∨
        (fp, other) ∈ db.revocations.map Revocation.key := by
  unfold revoke
  cases named : normalizeFingerprint raw with
  | error message => simp
  | ok found =>
      by_cases first : env.broken = some 0
      · simp [first]
      · have added : ∀ rows : List Revocation,
            (fp, other) ∈ (upsert Revocation.key
              { fingerprint := found, licensee := licensee, reason := reason }
              (fun row => { row with reason := reason }) rows).map Revocation.key ↔
            (fp, other) = (found, licensee) ∨ (fp, other) ∈ rows.map Revocation.key :=
          mem_keys_upsert_iff (fun _ => rfl)
        have keyed : (fp, other) = (found, licensee) ↔
            (Except.ok found : Except String String) = .ok fp ∧ licensee = other ∧
              env.broken ≠ some 0 := by
          simp only [Prod.mk.injEq, Except.ok.injEq, ne_eq, first, not_false_eq_true, and_true]
          constructor
          · rintro ⟨rfl, rfl⟩
            exact ⟨rfl, rfl⟩
          · rintro ⟨rfl, rfl⟩
            exact ⟨rfl, rfl⟩
        simp only [if_neg first]
        rw [← keyed]
        split
        · exact added db.revocations
        · rw [markTrials_revocations]
          exact added db.revocations

theorem mem_unrevoke (db : Database) (env : Moment) (raw : String) (licensee : Option String)
    (fp other : String) :
    (fp, other) ∈ (unrevoke db env raw licensee).1.revocations.map Revocation.key ↔
      ¬(normalizeFingerprint raw = .ok fp ∧ licensee.all (fun l => other == l) = true ∧
          env.broken ≠ some 0) ∧
        (fp, other) ∈ db.revocations.map Revocation.key := by
  unfold unrevoke
  cases named : normalizeFingerprint raw with
  | error message => simp
  | ok found =>
      by_cases first : env.broken = some 0
      · simp [first]
      · have removed : ∀ rows : List Revocation,
            (fp, other) ∈ (rows.filter (fun row =>
              decide (¬(row.fingerprint = found ∧
                licensee.all (fun l => row.licensee == l) = true)))).map Revocation.key ↔
            ¬(fp = found ∧ licensee.all (fun l => other == l) = true) ∧
              (fp, other) ∈ rows.map Revocation.key := by
          intro rows
          simp only [List.mem_map, List.mem_filter, Revocation.key, Prod.mk.injEq,
            decide_eq_true_eq]
          constructor
          · rintro ⟨row, ⟨member, kept⟩, rfl, rfl⟩
            exact ⟨kept, row, member, rfl, rfl⟩
          · rintro ⟨kept, row, member, rfl, rfl⟩
            exact ⟨row, ⟨member, kept⟩, rfl, rfl⟩
        have keyed : (fp = found ∧ licensee.all (fun l => other == l) = true) ↔
            (Except.ok found : Except String String) = .ok fp ∧
              licensee.all (fun l => other == l) = true ∧ env.broken ≠ some 0 := by
          simp only [Except.ok.injEq, ne_eq, first, not_false_eq_true, and_true]
          exact and_congr_left' eq_comm
        simp only [if_neg first]
        rw [← keyed]
        split
        · exact removed db.revocations
        · rw [markTrials_revocations]
          exact removed db.revocations

theorem TrialOutcome.revocations {cfg : ServerConfig} {stamps : Timestamps} {env : Moment}
    {fp email : String} {db : Database} {result : Database × Except ServerError TrialResponse}
    (outcome : TrialOutcome cfg stamps env fp email db result) :
    result.1.revocations = db.revocations := by
  cases outcome <;> rfl

private theorem trialStart_revocations (cfg : ServerConfig) (stamps : Timestamps) (env : Moment)
    (req : TrialStart) (server : Server) :
    (trialStart cfg stamps env req server).1.db.revocations = server.db.revocations := by
  rcases trialStart_cases cfg stamps env req server with
    ⟨fp, email, _, database, _⟩ | ⟨_, database, _⟩
  · rw [database]
    exact (startTrial_outcome cfg stamps env fp email server.db).revocations
  · rw [database]

section Runs

variable (cfg : ServerConfig) (stamps : Timestamps)

private theorem recorded_initial : Recorded {} := by
  intro fp licensee
  exact iff_of_false List.not_mem_nil nofun

theorem Recorded.step {service next : Service} {call : Call} (recorded : Recorded service)
    (taken : service.step cfg stamps call = some next) : Recorded next := by
  cases taken
  intro fp licensee
  have before := recorded fp licensee
  rw [inForce_append]
  cases call with
  | revoke raw revoked reason env =>
      dsimp only [Server.call]
      rw [mem_revoke, before]
      by_cases adds : normalizeFingerprint raw = .ok fp ∧ revoked = licensee ∧
          env.broken ≠ some 0
      · have changed : Call.revokes fp licensee (.revoke raw revoked reason env) = some true := by
          simp only [Call.revokes, if_pos adds]
        rw [changed]
        exact iff_of_true (.inl adds) rfl
      · have unchanged : Call.revokes fp licensee (.revoke raw revoked reason env) = none := by
          simp only [Call.revokes, if_neg adds]
        rw [unchanged]
        exact or_iff_right adds
  | unrevoke raw freed env =>
      dsimp only [Server.call]
      rw [mem_unrevoke, before]
      by_cases removes : normalizeFingerprint raw = .ok fp ∧
          freed.all (fun l => licensee == l) = true ∧ env.broken ≠ some 0
      · have changed : Call.revokes fp licensee (.unrevoke raw freed env) = some false := by
          simp only [Call.revokes, if_pos removes]
        rw [changed]
        exact iff_of_false (fun held => held.1 removes) nofun
      · have unchanged : Call.revokes fp licensee (.unrevoke raw freed env) = none := by
          simp only [Call.revokes, if_neg removes]
        rw [unchanged]
        exact and_iff_right removes
  | trialStart req env =>
      dsimp only [Server.call]
      rw [trialStart_revocations]
      exact before
  | heartbeat req env =>
      dsimp only [Server.call]
      rw [heartbeat_db]
      exact before

/-- What a call signs, no revocation in force covers. A trial start is covered
by the revocation of every licensee, a heartbeat also by that of its own. -/
def Lawful (service : Service) (call : Call) : Prop :=
  ∀ doc fp, (service.server.call cfg stamps call).2 = some doc → doc.fingerprint = some fp →
    inForce service.past fp "*" = false ∧
      ((∃ req env, call = .heartbeat req env) → inForce service.past fp doc.licensee = false)

/-- Where every licensee is revoked, an admitted trial start finds the mark on
the row of the trial, or finds the trial expired. -/
def MarkKept (service : Service) : Call → Prop
  | .trialStart req env =>
      ∀ fp email, req.Admitted cfg env service.server fp email →
        inForce service.past fp "*" = true → ¬Startable stamps env service.server.db fp
  | _ => True

variable {cfg stamps}

theorem TrialOutcome.signed_iff {env : Moment} {fp email : String} {db : Database}
    {result : Database × Except ServerError TrialResponse}
    (outcome : TrialOutcome cfg stamps env fp email db result) :
    (∃ doc, result.2.toOption.map TrialResponse.licenseFile = some doc) ↔
      Startable stamps env db fp := by
  cases outcome with
  | refused err barred => exact iff_of_false (fun signed => by cases signed.choose_spec) barred
  | fresh absent startable => exact iff_of_true ⟨_, rfl⟩ startable
  | reused row licensee expiresAt trials found stored alive kept startable =>
      exact iff_of_true ⟨_, rfl⟩ startable

theorem TrialOutcome.fingerprint {env : Moment} {fp email : String} {db : Database}
    {result : Database × Except ServerError TrialResponse} {doc : LicenseDoc}
    (outcome : TrialOutcome cfg stamps env fp email db result)
    (signed : result.2.toOption.map TrialResponse.licenseFile = some doc) :
    doc.fingerprint = some fp := by
  cases outcome with
  | refused err barred => cases signed
  | fresh absent startable =>
      cases signed
      rfl
  | reused row licensee expiresAt trials found stored alive kept startable =>
      cases signed
      rfl

theorem lawful_trialStart_iff (service : Service) (req : TrialStart) (env : Moment) :
    Lawful cfg stamps service (.trialStart req env) ↔
      MarkKept cfg stamps service (.trialStart req env) := by
  unfold Lawful MarkKept
  dsimp only [Server.call]
  rcases trialStart_cases cfg stamps env req service.server with
    ⟨fp, email, admitted, _, answer⟩ | ⟨refused, _, err, answer⟩
  · rw [answer]
    have outcome := startTrial_outcome cfg stamps env fp email service.server.db
    constructor
    · intro lawful other contact again everyone startable
      have same : fp = other := by
        have both := admitted.named.symm.trans again.named
        injection both
      subst same
      obtain ⟨doc, signed⟩ := outcome.signed_iff.mpr startable
      rw [(lawful doc fp signed (outcome.fingerprint signed)).1] at everyone
      cases everyone
    · intro kept doc other signed named
      have same : fp = other := by
        have both := (outcome.fingerprint signed).symm.trans named
        injection both
      subst same
      constructor
      · by_contra everyone
        rw [Bool.not_eq_false] at everyone
        exact kept fp email admitted everyone (outcome.signed_iff.mp ⟨doc, signed⟩)
      · rintro ⟨req', env', impossible⟩
        cases impossible
  · rw [answer]
    constructor
    · intro _ fp email admitted
      exact absurd admitted (refused fp email)
    · intro _ doc fp signed
      cases signed

theorem lawful_heartbeat {service : Service} (recorded : Recorded service)
    (req : HeartbeatRequest) (env : Moment) :
    Lawful cfg stamps service (.heartbeat req env) := by
  intro doc fp signed named
  dsimp only [Server.call] at signed
  cases answered : (heartbeat cfg stamps env req service.server).2 with
  | error err =>
      rw [answered] at signed
      cases signed
  | ok response =>
      rw [answered] at signed
      cases signed
      obtain ⟨bound, presented, _, isBound, attests⟩ := heartbeat_ok answered
      obtain ⟨unlisted, expiresAt, file, _⟩ := attest_ok attests
      rw [file] at named ⊢
      have same : bound = fp := Option.some.inj (isBound.symm.trans named)
      subst same
      have free : ∀ licensee, licensee = presented.licensee ∨ licensee = "*" →
          inForce service.past bound licensee = false := by
        intro licensee covered
        by_contra held
        rw [Bool.not_eq_false] at held
        obtain ⟨row, member, keyed⟩ := List.mem_map.mp ((recorded bound licensee).mpr held)
        cases keyed
        exact unlisted row member ⟨rfl, covered⟩
      exact ⟨free "*" (.inr rfl), fun _ => free presented.licensee (.inl rfl)⟩

private theorem lawful_iff_markKept {service : Service} (recorded : Recorded service)
    (call : Call) :
    Lawful cfg stamps service call ↔ MarkKept cfg stamps service call := by
  cases call with
  | revoke raw revoked reason env => exact iff_of_true (fun doc fp signed => nomatch signed) trivial
  | unrevoke raw freed env => exact iff_of_true (fun doc fp signed => nomatch signed) trivial
  | trialStart req env => exact lawful_trialStart_iff service req env
  | heartbeat req env => exact iff_of_true (lawful_heartbeat recorded req env) trivial

variable (cfg stamps)

/-- In every sequence of calls, revocations are effective all along exactly
where no admitted trial start misses the mark of one. -/
theorem revocation_effective_iff (calls : List Call) :
    (∀ early call late reached, calls = early ++ call :: late →
      run (Service.step cfg stamps) {} early = some reached → Lawful cfg stamps reached call) ↔
    (∀ early call late reached, calls = early ++ call :: late →
      run (Service.step cfg stamps) {} early = some reached → MarkKept cfg stamps reached call) := by
  rw [← obeys_iff_forall, ← obeys_iff_forall]
  refine @Obeys.iff_of_invariant _ _ _ _ Recorded _ ?_ ?_ calls {} recorded_initial
  · intro service call next _kept recorded taken
    exact recorded.step cfg stamps taken
  · intro service call recorded
    exact lawful_iff_markKept recorded call

end Runs

/-- A trial starts after every licensee was revoked, because it has no row to
be marked; and it goes on after the mark was cleared for another licensee. -/
theorem trial_starts_under_revocation :
    (∃ reached, run (Service.step tenDays januaryStamps) {}
        [.revoke plantFingerprint "*" "abuse" { verifiedAt := newYear, now := newYear }] =
          some reached ∧
      inForce reached.past plantFingerprint "*" = true ∧
      ¬Lawful tenDays januaryStamps reached (plantStart newYear)) ∧
    ∃ reached, run (Service.step tenDays januaryStamps) {}
        [plantStart newYear,
          .revoke plantFingerprint "*" "abuse" { verifiedAt := newYear, now := newYear },
          .revoke plantFingerprint "Acme" "chargeback" { verifiedAt := newYear, now := newYear },
          .unrevoke plantFingerprint (some "Acme") { verifiedAt := newYear, now := newYear }] =
          some reached ∧
      inForce reached.past plantFingerprint "*" = true ∧
      ¬Lawful tenDays januaryStamps reached (plantStart (newYear + days 1)) := by
  constructor
  · refine ⟨_, rfl, by decide +kernel, ?_⟩
    intro lawful
    have none := (lawful _ plantFingerprint (by rfl) (by rfl)).1
    revert none
    decide +kernel
  · refine ⟨_, rfl, by decide +kernel, ?_⟩
    intro lawful
    have none := (lawful _ plantFingerprint (by rfl) (by rfl)).1
    revert none
    decide +kernel

end MigrationPlatform.License
