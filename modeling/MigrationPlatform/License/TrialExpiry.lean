/-
A trial is never extended.

The first start of a trial stores its expiry as text. Later starts and heartbeats
sign what they read back from the row, so that every trial license for an install
ends when the first start said. A heartbeat starts from a presented document; one
without a row would keep its own expiry, but a trial that this server has signed
has its row.
-/

import MigrationPlatform.License.Server
import Mathlib.Tactic.SplitIfs

namespace MigrationPlatform.License

open GuardedRuns KeyedTable

/-- What the server relies on: a formatted instant is not read back as another
one, and the fallback format does not match it. -/
structure Timestamps.Faithful (stamps : Timestamps) : Prop where
  readsBack : ∀ instant parsed,
    stamps.parseFromRfc3339 (stamps.toRfc3339 instant) = some parsed → parsed = instant
  notNaive : ∀ instant, stamps.parseNaive (stamps.toRfc3339 instant) = none

theorem Timestamps.Faithful.parseStoredTs {stamps : Timestamps} (faithful : stamps.Faithful)
    {instant parsed : Int}
    (stored : stamps.parseStoredTs (stamps.toRfc3339 instant) = some parsed) :
    parsed = instant := by
  unfold Timestamps.parseStoredTs at stored
  rw [faithful.notNaive, Option.or_none] at stored
  exact faithful.readsBack instant parsed stored

/-! ### The first start -/

def Signing.startedAt (fp : String) (signing : Signing) : Option Int :=
  match signing.call, signing.signed with
  | .trialStart _ env, some doc => if doc.fingerprint = some fp then some env.now else none
  | _, _ => none

def firstTrialStart (past : List Signing) (fp : String) : Option Int :=
  past.findSome? (Signing.startedAt fp)

theorem firstTrialStart_append (past : List Signing) (signing : Signing) (fp : String) :
    firstTrialStart (past ++ [signing]) fp =
      (firstTrialStart past fp).or (signing.startedAt fp) := by
  unfold firstTrialStart
  rw [List.findSome?_append]
  congr 1
  rw [List.findSome?_singleton]

section Runs

variable (cfg : ServerConfig) (stamps : Timestamps)

/-- The license ends with the first trial of its install, and was signed before. -/
def InTrial (past : List Signing) (signing : Signing) (doc : LicenseDoc) : Prop :=
  ∃ fp started, doc.fingerprint = some fp ∧ firstTrialStart past fp = some started ∧
    doc.expiresAt = started + days cfg.trialDays ∧ signing.call.env.now < doc.expiresAt

/-- A trial license that is presented was signed by this server, or its install
has started a trial here. -/
def PreviouslyIssued (service : Service) : Call → Prop
  | .heartbeat req _ =>
      ∀ doc fp, req.licenseFile = some doc → doc.kind = .trial → doc.fingerprint = some fp →
        (∃ signing ∈ service.past, signing.signed = some doc) ∨
          (firstTrialStart service.past fp).isSome = true
  | _ => True

structure TrialsFixed (service : Service) : Prop where
  stored : ∀ fp, (lookup TrialRow.fingerprint fp service.server.db.trials).map TrialRow.expiresAt =
    (firstTrialStart service.past fp).map
      (fun started => stamps.toRfc3339 (started + days cfg.trialDays))
  signed : ∀ signing ∈ service.past, ∀ doc, signing.signed = some doc → doc.kind = .trial →
    InTrial cfg service.past signing doc

variable {cfg stamps}

theorem InTrial.append {past : List Signing} {signing : Signing} {doc : LicenseDoc}
    (inTrial : InTrial cfg past signing doc) (later : Signing) :
    InTrial cfg (past ++ [later]) signing doc := by
  obtain ⟨fp, started, named, first, ends, before⟩ := inTrial
  refine ⟨fp, started, named, ?_, ends, before⟩
  rw [firstTrialStart_append, first]
  rfl

theorem TrialsFixed.append {service : Service} (fixed : TrialsFixed cfg stamps service)
    {server : Server} {signing : Signing}
    (stored : ∀ fp, (lookup TrialRow.fingerprint fp server.db.trials).map TrialRow.expiresAt =
      ((firstTrialStart service.past fp).or (signing.startedAt fp)).map
        (fun started => stamps.toRfc3339 (started + days cfg.trialDays)))
    (signed : ∀ doc, signing.signed = some doc → doc.kind = .trial →
      InTrial cfg (service.past ++ [signing]) signing doc) :
    TrialsFixed cfg stamps { server := server, past := service.past ++ [signing] } := by
  constructor
  · intro fp
    rw [firstTrialStart_append]
    exact stored fp
  · intro earlier member doc isSigned isTrial
    rcases List.mem_append.mp member with old | new
    · exact (fixed.signed earlier old doc isSigned isTrial).append signing
    · cases List.mem_singleton.mp new
      exact signed doc isSigned isTrial

theorem TrialsFixed.append_unsigned {service : Service} (fixed : TrialsFixed cfg stamps service)
    {server : Server} {signing : Signing} (unsigned : signing.signed = none)
    (kept : ∀ fp, (lookup TrialRow.fingerprint fp server.db.trials).map TrialRow.expiresAt =
      (lookup TrialRow.fingerprint fp service.server.db.trials).map TrialRow.expiresAt) :
    TrialsFixed cfg stamps { server := server, past := service.past ++ [signing] } := by
  apply fixed.append
  · intro fp
    have quiet : signing.startedAt fp = none := by
      unfold Signing.startedAt
      rw [unsigned]
      split <;> rename_i impossible <;> first | cases impossible | rfl
    rw [quiet, Option.or_none, kept fp]
    exact fixed.stored fp
  · intro doc signed
    rw [unsigned] at signed
    cases signed

theorem lookup_markTrials (db : Database) (fp other : String) (reason : Option String) :
    (lookup TrialRow.fingerprint other (db.markTrials fp reason).trials).map TrialRow.expiresAt =
      (lookup TrialRow.fingerprint other db.trials).map TrialRow.expiresAt := by
  unfold Database.markTrials
  apply lookup_expiresAt_map
  · intro row
    split <;> rfl
  · intro row
    split <;> rfl

private theorem lookup_revoke (db : Database) (env : Moment) (raw licensee reason fp : String) :
    (lookup TrialRow.fingerprint fp (revoke db env raw licensee reason).1.trials).map
        TrialRow.expiresAt =
      (lookup TrialRow.fingerprint fp db.trials).map TrialRow.expiresAt := by
  unfold revoke
  split
  · rfl
  · split
    · rfl
    · dsimp only
      split
      · rfl
      · rw [lookup_markTrials]

private theorem lookup_unrevoke (db : Database) (env : Moment) (raw : String)
    (licensee : Option String)
    (fp : String) :
    (lookup TrialRow.fingerprint fp (unrevoke db env raw licensee).1.trials).map
        TrialRow.expiresAt =
      (lookup TrialRow.fingerprint fp db.trials).map TrialRow.expiresAt := by
  unfold unrevoke
  split
  · rfl
  · split
    · rfl
    · dsimp only
      split
      · rfl
      · rw [lookup_markTrials]

theorem TrialsFixed.expiry {service : Service} (fixed : TrialsFixed cfg stamps service)
    (faithful : stamps.Faithful) {fp : String} {row : TrialRow} {expiresAt : Int}
    (found : lookup TrialRow.fingerprint fp service.server.db.trials = some row)
    (stored : stamps.parseStoredTs row.expiresAt = some expiresAt) :
    ∃ started, firstTrialStart service.past fp = some started ∧
      expiresAt = started + days cfg.trialDays := by
  have text := fixed.stored fp
  rw [found, Option.map_some] at text
  cases first : firstTrialStart service.past fp with
  | none =>
      rw [first] at text
      cases text
  | some started =>
      rw [first, Option.map_some] at text
      rw [Option.some.inj text] at stored
      exact ⟨started, rfl, faithful.parseStoredTs stored⟩

theorem trialDoc_startedAt (req : TrialStart) (env : Moment) (fp licensee other : String)
    (expiresAt : Int) :
    Signing.startedAt other
        { call := .trialStart req env, signed := some (trialDoc fp licensee expiresAt env.now) } =
      if fp = other then some env.now else none := by
  simp only [Signing.startedAt, trialDoc, Option.some.injEq]

private theorem days_trialDays_pos (cfg : ServerConfig) : 0 < days cfg.trialDays := by
  have positive := cfg.trialDaysBound.1
  unfold days hours
  omega

theorem TrialsFixed.trialStart {service : Service} (fixed : TrialsFixed cfg stamps service)
    (faithful : stamps.Faithful) (req : TrialStart) (env : Moment) :
    TrialsFixed cfg stamps
      { server := (trialStart cfg stamps env req service.server).1
        past := service.past ++
          [{ call := .trialStart req env
             signed := (trialStart cfg stamps env req service.server).2.toOption.map
               TrialResponse.licenseFile }] } := by
  rcases trialStart_cases cfg stamps env req service.server with
    ⟨fp, email, _, database, answer⟩ | ⟨_, database, err, answer⟩
  · rw [answer]
    have outcome := startTrial_outcome cfg stamps env fp email service.server.db
    generalize startTrial cfg stamps env fp email service.server.db = result at database outcome
    cases outcome with
    | refused err barred =>
        apply fixed.append_unsigned rfl
        intro other
        rw [database]
    | fresh absent startable =>
        have unstarted : firstTrialStart service.past fp = none := by
          have text := fixed.stored fp
          rw [absent, Option.map_none] at text
          exact Option.map_eq_none_iff.mp text.symm
        apply fixed.append
        · intro other
          rw [database]
          simp only [Except.toOption, Option.map_some, trialDoc_startedAt]
          by_cases same : fp = other
          · subst same
            have row : lookup TrialRow.fingerprint fp (service.server.db.trials ++
                [{ fingerprint := fp, email := some email
                   startedAt := stamps.toRfc3339 env.now
                   expiresAt := stamps.toRfc3339 (env.now + days cfg.trialDays) }]) =
                some { fingerprint := fp, email := some email
                       startedAt := stamps.toRfc3339 env.now
                       expiresAt := stamps.toRfc3339 (env.now + days cfg.trialDays) } := by
              unfold lookup at absent ⊢
              rw [List.find?_append, absent]
              simp
            rw [row, unstarted, if_pos rfl]
            rfl
          · have others : lookup TrialRow.fingerprint other (service.server.db.trials ++
                [{ fingerprint := fp, email := some email
                   startedAt := stamps.toRfc3339 env.now
                   expiresAt := stamps.toRfc3339 (env.now + days cfg.trialDays) }]) =
                lookup TrialRow.fingerprint other service.server.db.trials := by
              unfold lookup
              rw [List.find?_append]
              simp [same]
            rw [others, if_neg same, Option.or_none]
            exact fixed.stored other
        · intro doc signed _isTrial
          cases signed
          refine ⟨fp, env.now, rfl, ?_, rfl, ?_⟩
          · rw [firstTrialStart_append, unstarted]
            simp only [Except.toOption, Option.map_some, trialDoc_startedAt, if_true,
              Option.none_or]
          · have positive := days_trialDays_pos cfg
            change env.now < env.now + days cfg.trialDays
            omega
    | reused row licensee expiresAt trials found stored alive kept startable =>
        obtain ⟨started, first, ends⟩ := fixed.expiry faithful found stored
        apply fixed.append
        · intro other
          rw [database]
          simp only [Except.toOption, Option.map_some, trialDoc_startedAt]
          rw [kept other, fixed.stored other]
          by_cases same : fp = other
          · subst same
            rw [first]
            rfl
          · rw [if_neg same, Option.or_none]
        · intro doc signed _isTrial
          cases signed
          refine ⟨fp, started, rfl, ?_, ends, alive⟩
          rw [firstTrialStart_append, first]
          rfl
  · rw [answer]
    apply fixed.append_unsigned rfl
    intro other
    rw [database]

theorem TrialsFixed.heartbeat {service : Service} (fixed : TrialsFixed cfg stamps service)
    (faithful : stamps.Faithful) (req : HeartbeatRequest) (env : Moment)
    (issued : PreviouslyIssued service (.heartbeat req env)) :
    TrialsFixed cfg stamps
      { server := (heartbeat cfg stamps env req service.server).1
        past := service.past ++
          [{ call := .heartbeat req env
             signed := (heartbeat cfg stamps env req service.server).2.toOption.map
               HeartbeatResponse.licenseFile }] } := by
  apply fixed.append
  · intro fp
    have quiet : ∀ signed, Signing.startedAt fp { call := .heartbeat req env, signed := signed } =
        none := fun _ => rfl
    rw [heartbeat_db, quiet, Option.or_none]
    exact fixed.stored fp
  · intro doc signed isTrial
    cases answered : (License.heartbeat cfg stamps env req service.server).2 with
    | error err =>
        rw [answered] at signed
        cases signed
    | ok response =>
        rw [answered] at signed
        cases signed
        obtain ⟨fp, presented, file, bound, attests⟩ := heartbeat_ok answered
        obtain ⟨_, expiresAt, made, dated⟩ := attest_ok attests
        have isTrial : presented.kind = .trial := by
          rw [made] at isTrial
          exact isTrial
        -- a trial of this server has its row, so the presented expiry is not kept
        have started : (firstTrialStart service.past fp).isSome = true := by
          rcases issued presented fp file isTrial bound with ⟨earlier, member, signs⟩ | started
          · obtain ⟨other, started, named, first, _, _⟩ :=
              fixed.signed earlier member presented signs isTrial
            have same : other = fp := Option.some.inj (named.symm.trans bound)
            rw [← same, first]
            rfl
          · exact started
        rcases dated isTrial with absent | ⟨row, found, stored, alive⟩
        · have text := fixed.stored fp
          rw [absent, Option.map_none] at text
          rw [Option.map_eq_none_iff.mp text.symm] at started
          cases started
        · obtain ⟨began, first, ends⟩ := fixed.expiry faithful found stored
          rw [made]
          refine ⟨fp, began, bound, ?_, ends, alive⟩
          rw [firstTrialStart_append, first]
          rfl

theorem TrialsFixed.step {service next : Service} {call : Call} (faithful : stamps.Faithful)
    (issued : PreviouslyIssued service call) (fixed : TrialsFixed cfg stamps service)
    (taken : service.step cfg stamps call = some next) : TrialsFixed cfg stamps next := by
  cases taken
  cases call with
  | revoke raw licensee reason env =>
      apply fixed.append_unsigned rfl
      intro fp
      dsimp only [Server.call]
      rw [lookup_revoke]
  | unrevoke raw licensee env =>
      apply fixed.append_unsigned rfl
      intro fp
      dsimp only [Server.call]
      rw [lookup_unrevoke]
  | trialStart req env => exact fixed.trialStart faithful req env
  | heartbeat req env => exact fixed.heartbeat faithful req env issued

/-- In every run, each trial license that the server signs ends when the first
trial of its install ends, and is signed before that. -/
theorem trial_never_extended (faithful : stamps.Faithful) {calls : List Call} {final : Service}
    (ran : run (Service.step cfg stamps) {} calls = some final)
    (issued : Obeys (Service.step cfg stamps) PreviouslyIssued {} calls) :
    ∀ signing ∈ final.past, ∀ doc, signing.signed = some doc → doc.kind = .trial →
      InTrial cfg final.past signing doc := by
  have initial : TrialsFixed cfg stamps {} := by
    constructor
    · intro fp
      rfl
    · intro signing impossible
      cases impossible
  have fixed : TrialsFixed cfg stamps final := by
    refine invariant_of_obeys ?_ calls {} final initial issued ran
    intro service call next allowed held taken
    exact held.step faithful allowed taken
  exact fixed.signed

end Runs

private theorem januaryStamps_faithful : januaryStamps.Faithful := by
  constructor
  · intro instant parsed read
    simp only [januaryStamps] at read
    split_ifs at read <;> simp_all
  · intro instant
    rfl

def plantHeartbeat (now : Int) : Call :=
  .heartbeat
    { authorization := some "Bearer 0123456789abcdef0123456789abcdef"
      fingerprint := plantFingerprint
      licenseFile := some (trialDoc plantFingerprint "lead@example.com" (newYear + days 10) newYear) }
    { instant := now, verifiedAt := now, now := now }

theorem plant_trial_never_extended :
    ∃ final, run (Service.step tenDays januaryStamps) {}
        [plantStart newYear, plantHeartbeat (newYear + days 1), plantStart (newYear + days 2)] =
          some final ∧
      (final.past.map (fun signing => signing.signed.map LicenseDoc.expiresAt)) =
        [some (newYear + days 10), some (newYear + days 10), some (newYear + days 10)] ∧
      ∀ signing ∈ final.past, ∀ doc, signing.signed = some doc → doc.kind = .trial →
        InTrial tenDays final.past signing doc := by
  refine ⟨_, rfl, by decide +kernel, ?_⟩
  refine @trial_never_extended tenDays januaryStamps januaryStamps_faithful
    [plantStart newYear, plantHeartbeat (newYear + days 1), plantStart (newYear + days 2)] _ rfl
    ⟨trivial, ?_, trivial, trivial⟩
  intro doc fp presented _ _
  cases presented
  exact .inl ⟨_, List.mem_cons_self, rfl⟩

end MigrationPlatform.License
