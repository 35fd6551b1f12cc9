/-
When the rows of schedules and the schedules of Temporal agree.

An update sends at most a spec and the paused flag to Temporal, and the spec
without its time zone; what else it changes, it changes in the row only. A call
that stops behind a request that took effect leaves the row behind. The guard
`Kept` says of each call that neither happens.
-/

import MigrationPlatform.Foundation.GuardedRuns
import MigrationPlatform.Schedules.ScheduleStore

namespace MigrationPlatform.Schedules

open MigrationPlatform.Connectors (Value Data getKey asStr)
open GuardedRuns

/-- Temporal takes an empty name for UTC. -/
def zone (name : String) : String := if name = "" then "UTC" else name

def rowCalendar (humantime : String → Option Nat) : Spec → Option Calendar
  | .cron text => some (.cron text)
  | .every text => (humantime text).map (fun duration : Nat => .interval (duration : Int))

structure Matches (humantime : String → Option Nat) (row : Row) (temporal : TemporalSchedule) :
    Prop where
  calendar : rowCalendar humantime row.spec = some temporal.spec.calendar
  sameZone : zone temporal.spec.timeZoneName = zone row.timezone
  overlap : temporal.overlap = row.overlap
  catchup : temporal.catchupWindow = row.catchupWindowSeconds * 1000000000
  paused : temporal.paused = !row.enabled

def Agrees (humantime : String → Option Nat) (slot : Slot) : Prop :=
  match slot.row, slot.temporal with
  | none, none => True
  | some row, some temporal => Matches humantime row temporal
  | _, _ => False

def Readable : Spec → Prop
  | .cron _ => True
  | .every text => BridgeInterval text

/-- The bridge answers an interval that it cannot read as a bad request. -/
def rejected : Spec → Bool
  | .cron _ => false
  | .every text => (parseDuration text).isNone

/-- A create call that inserts a row creates the schedule, and pauses it if it is
not enabled; or the schedule is refused, and the row taken back. When the reply
of the bridge and the rollback are both lost, both stores have the schedule. -/
def CreateKept (crates : Crates) (req : CreateSchedule)
    (env : CreateEnv) : Prop :=
  ∀ row, createRow crates req env = .ok row →
    env.insert = .refused ∨
      (env.insert = .done ∧
        ((Readable row.spec ∧ env.bridge = .done ∧
            (row.enabled = true ∨ env.pause ≠ .refused)) ∨
          ((rejected row.spec = true ∨ env.bridge = .refused) ∧
            env.rollback ≠ .refused) ∨
          (Readable row.spec ∧ env.bridge = .lost ∧ env.rollback = .refused ∧
            row.enabled = true)))

/-- The spec of an update that takes effect at Temporal, and whether the update
goes on behind it. -/
def specEffect (crates : Crates) (asked : Option Value)
    (outcome : Outcome) : Option Spec × Bool :=
  match asked with
  | none => (none, true)
  | some raw =>
      match normaliseSpec crates raw with
      | .error _ => (none, false)
      | .ok spec => if rejected spec = true then (none, false) else attempt outcome none (some spec)

def enabledEffect (asked : Option Bool) (outcome : Outcome) : Option Bool × Bool :=
  match asked with
  | none => (none, true)
  | some enabled => attempt outcome none (some enabled)

structure Repeats (row : Row) (spec : Option Spec) (enabled : Option Bool) : Prop where
  sameSpec : ∀ sent, spec = some sent → Readable sent ∧ sent = row.spec ∧ zone row.timezone = "UTC"
  sameFlag : ∀ sent, enabled = some sent → sent = row.enabled

/-- What only the row is told is what it has. With a spec Temporal falls back to
UTC. -/
structure Restates (row : Row) (req : UpdateSchedule) (spec : Option Spec) : Prop where
  readable : ∀ sent, spec = some sent → Readable sent
  sameZone : zone (req.timezone.getD row.timezone) =
    if spec.isSome = true then "UTC" else zone row.timezone
  sameCatchup : ∀ asked, req.catchupWindowSeconds = some asked →
    max asked 0 = row.catchupWindowSeconds
  sameOverlap : ∀ asked, req.overlapPolicy = some asked → overlapOf asked = some row.overlap

def overlapAccepted (asked : Option String) : Bool := asked.all (fun text => (overlapOf text).isSome)

def UpdateKept (crates : Crates) (req : UpdateSchedule)
    (env : UpdateEnv) (row : Row) : Prop :=
  let spec := specEffect crates req.spec env.spec
  let enabled := enabledEffect req.enabled env.enabled
  if spec.2 = false then Repeats row spec.1 none
  else if enabled.2 = false ∨ overlapAccepted req.overlapPolicy = false ∨ env.row = .refused then
    Repeats row spec.1 enabled.1
  else Restates row req spec.1

def UpdateEnv.admits (env : UpdateEnv) (req : UpdateSchedule) : Prop :=
  env.mayEdit = true ∧ ¬ (req.enabled = some true ∧ env.licensed = false) ∧ env.fetched = true

/-- Temporal refuses the flag, or the row follows, or the flag was so before. -/
def PauseKept (enabled : Bool) (env : PauseEnv) (row : Row) : Prop :=
  env.bridge = .refused ∨ (env.bridge = .done ∧ env.row ≠ .refused) ∨ enabled = row.enabled

def Kept (crates : Crates) (store : Store) : Call → Prop
  | .create req env => CreateKept crates req env
  | .update id req env => env.admits req → ∀ row, (store.slots id).row = some row →
      UpdateKept crates req env row
  | .pause id env => env.mayOperate = true → env.fetched = true →
      ∀ row, (store.slots id).row = some row → PauseKept false env row
  | .resume id env => env.mayOperate = true → env.licensed = true → env.fetched = true →
      ∀ row, (store.slots id).row = some row → PauseKept true env row

section Specs

variable {crates : Crates}

def Accepted (crates : Crates) (spec : Spec) : Prop := ∃ raw, normaliseSpec crates raw = .ok spec

theorem accepted_every {text : String} (accepted : Accepted crates (.every text)) :
    ∃ duration, crates.humantime text = some duration := by
  obtain ⟨raw, normalised⟩ := accepted
  unfold normaliseSpec at normalised
  split at normalised
  · split at normalised
    · cases normalised
    · split at normalised
      · cases normalised
      · split at normalised
        · cases normalised
        · cases normalised
  · split at normalised
    · split at normalised
      · rename_i known
        cases normalised
        exact Option.isSome_iff_exists.mp known
      · cases normalised
    · cases normalised

theorem accepted_cron {text : String} (accepted : Accepted crates (.cron text)) : text ≠ "" := by
  obtain ⟨raw, normalised⟩ := accepted
  have empty : ∀ result, cronForValidation "" ≠ .ok result := by
    have refused : fieldCount (Batch.trimSpace "") = 0 := by
      decide +kernel
    intro result validated
    unfold cronForValidation at validated
    simp only [refused] at validated
    cases validated
  unfold normaliseSpec at normalised
  split at normalised
  · split at normalised
    · cases normalised
    · split at normalised
      · cases normalised
      · rename_i validated
        split at normalised
        · cases normalised
          intro blank
          rw [blank] at validated
          exact empty _ validated
        · cases normalised
  · split at normalised
    · split at normalised
      · cases normalised
      · cases normalised
    · cases normalised

theorem BridgeInterval.nonempty {text : String} (interval : BridgeInterval text) : text ≠ "" := by
  intro blank
  rcases interval with zero | ⟨spans, written, _, _⟩
  · rw [zero] at blank
    exact absurd blank (by decide)
  · have long := written.long
    rw [blank] at long
    exact absurd long (by decide)

theorem scheduleSpec_readable (grammar : HumantimeGrammar crates.humantime) {spec : Spec}
    (accepted : Accepted crates spec) (readable : Readable spec) (body : ScheduleRequest)
    (bare : body.cron = "" ∧ body.every = "") :
    ∃ calendar, rowCalendar crates.humantime spec = some calendar ∧
      scheduleSpec (mergeSpec body spec) =
        some { calendar := calendar, timeZoneName := body.timezone } := by
  cases spec with
  | cron text =>
      refine ⟨.cron text, rfl, ?_⟩
      unfold scheduleSpec mergeSpec
      rw [if_pos (accepted_cron accepted)]
  | every text =>
      obtain ⟨duration, known⟩ := accepted_every accepted
      have parsed := (parseDuration_eq_iff grammar known).mpr readable
      refine ⟨.interval duration, ?_, ?_⟩
      · simp only [rowCalendar, known, Option.map_some]
      · unfold scheduleSpec mergeSpec
        rw [if_neg (fun cron => cron bare.1), if_pos (BridgeInterval.nonempty readable), parsed]
        rfl

theorem scheduleSpec_rejected {spec : Spec} (refused : rejected spec = true)
    (body : ScheduleRequest) (bare : body.cron = "") :
    scheduleSpec (mergeSpec body spec) = none := by
  cases spec with
  | cron text => cases refused
  | every text =>
      have unread : parseDuration text = none := Option.isNone_iff_eq_none.mp refused
      simp only [scheduleSpec, mergeSpec, bare, ne_eq, not_true, if_false, unread, Option.map_none,
        ite_self]

private theorem scheduleSpec_sent (grammar : HumantimeGrammar crates.humantime) {spec : Spec}
    (accepted : Accepted crates spec) (sent : rejected spec = false)
    (body : ScheduleRequest) (bare : body.cron = "") :
    ∃ after, scheduleSpec (mergeSpec body spec) = some after := by
  cases spec with
  | cron text =>
      unfold scheduleSpec mergeSpec
      rw [if_pos (accepted_cron accepted)]
      exact ⟨_, rfl⟩
  | every text =>
      have nonempty : text ≠ "" := by
        intro blank
        obtain ⟨duration, known⟩ := accepted_every accepted
        rw [blank] at known
        rcases grammar.accepted "" duration known with ⟨zero, _⟩ |
          ⟨spans, trailing, interval, _⟩
        · exact absurd zero (by decide)
        · exact absurd interval.long (by decide)
      obtain ⟨d, parsed⟩ := Option.isSome_iff_exists.mp (Option.isNone_eq_false_iff.mp sent)
      unfold scheduleSpec mergeSpec
      rw [if_neg (fun cron => cron bare), if_pos nonempty, parsed]
      exact ⟨_, rfl⟩

end Specs

/-! ### Create calls -/

theorem overlapPolicy_text (overlap : Overlap) : overlapPolicy overlap.text = overlap := by
  cases overlap with
  | skip => decide
  | bufferOne => decide
  | bufferAll => decide
  | cancelOther => decide
  | allowAll => decide

theorem createRow_accepted {crates : Crates} {req : CreateSchedule} {env : CreateEnv} {row : Row}
    (checked : createRow crates req env = .ok row) : Accepted crates row.spec := by
  unfold createRow at checked
  split at checked
  · cases checked
  · split at checked
    · cases checked
    · split at checked
      · cases checked
      · rename_i spec normalised
        split at checked
        · cases checked
        · split at checked
          · cases checked
          · split at checked
            · cases checked
            · split at checked
              · cases checked
              · cases checked
                exact ⟨req.spec, normalised⟩

section Steps

variable {crates : Crates}

theorem bridgeCreate_readable (grammar : HumantimeGrammar crates.humantime) {row : Row}
    (accepted : Accepted crates row.spec) (readable : Readable row.spec) :
    ∃ temporal : TemporalSchedule,
      (∀ outcome, bridgeCreate outcome (createBody row) none =
        attempt outcome none (some temporal)) ∧
      temporal.paused = false ∧
      Matches crates.humantime { row with enabled := true } temporal := by
  obtain ⟨calendar, meant, spec⟩ := @scheduleSpec_readable crates grammar row.spec accepted
    readable
    { timezone := row.timezone
      overlapPolicy := row.overlap.text
      catchupWindowSeconds := row.catchupWindowSeconds } ⟨rfl, rfl⟩
  refine ⟨
    { spec := { calendar := calendar, timeZoneName := row.timezone }
      overlap := row.overlap
      catchupWindow := row.catchupWindowSeconds * 1000000000
      paused := false }, ?_, rfl, meant, rfl, rfl, rfl, rfl⟩
  intro outcome
  unfold bridgeCreate createBody
  rw [spec]
  cases shape : row.spec with
  | cron text =>
      dsimp only [mergeSpec]
      rw [overlapPolicy_text]
  | every text =>
      dsimp only [mergeSpec]
      rw [overlapPolicy_text]

private theorem bridgeCreate_refused {row : Row} {outcome : Outcome}
    (refused : rejected row.spec = true ∨ outcome = .refused) :
    bridgeCreate outcome (createBody row) none = (none, false) := by
  unfold bridgeCreate
  rcases refused with unread | down
  · unfold createBody
    rw [scheduleSpec_rejected unread _ rfl]
  · rw [down]
    cases scheduleSpec (createBody row) with
    | none => rfl
    | some spec => rfl

theorem create_agrees (grammar : HumantimeGrammar crates.humantime) {req : CreateSchedule}
    {env : CreateEnv} (kept : CreateKept crates req env) :
    Agrees crates.humantime (createSchedule crates req env {}).1 := by
  unfold createSchedule
  cases checked : createRow crates req env with
  | error err => trivial
  | ok row =>
      dsimp only
      rcases kept row checked with notInserted | ⟨inserted, created | undone | doubly⟩
      · rw [notInserted]
        trivial
      · obtain ⟨readable, done, flagged⟩ := created
        obtain ⟨temporal, bridge, unpaused, same⟩ :=
          @bridgeCreate_readable crates grammar row (createRow_accepted checked) readable
        rw [inserted, bridge, done]
        dsimp only [attempt]
        cases enabled : row.enabled with
        | true =>
            refine ⟨same.calendar, same.sameZone, same.overlap, same.catchup, ?_⟩
            rw [unpaused, enabled]
            rfl
        | false =>
            rw [enabled] at flagged
            have pauses : env.pause ≠ .refused := flagged.resolve_left Bool.false_ne_true
            have paused : (bridgePause true env.pause (some temporal)).1 =
                some { temporal with paused := true } := by
              cases pause : env.pause with
              | done => rfl
              | lost => rfl
              | refused => exact absurd pause pauses
            rw [if_neg Bool.false_ne_true, paused]
            refine ⟨same.calendar, same.sameZone, same.overlap, same.catchup, ?_⟩
            rw [enabled]
            rfl
      · obtain ⟨refused, rolledBack⟩ := undone
        rw [inserted, bridgeCreate_refused refused]
        dsimp only [attempt]
        cases rollback : env.rollback with
        | done => trivial
        | lost => trivial
        | refused => exact absurd rollback rolledBack
      · obtain ⟨readable, lost, stays, enabled⟩ := doubly
        obtain ⟨temporal, bridge, unpaused, same⟩ :=
          @bridgeCreate_readable crates grammar row (createRow_accepted checked) readable
        rw [inserted, bridge, lost, stays]
        refine ⟨same.calendar, same.sameZone, same.overlap, same.catchup, ?_⟩
        rw [unpaused, enabled]
        rfl

/-- What the requests of a call that took effect have made of a schedule. -/
structure Sent (crates : Crates) (spec : Option Spec)
    (enabled : Option Bool) (before after : TemporalSchedule) : Prop where
  newSpec : ∀ sent, spec = some sent →
    Accepted crates sent ∧ scheduleSpec (mergeSpec {} sent) = some after.spec
  oldSpec : spec = none → after.spec = before.spec
  overlap : after.overlap = before.overlap
  catchup : after.catchupWindow = before.catchupWindow
  paused : after.paused = (enabled.map (fun flag => !flag)).getD before.paused

theorem sent_nothing (temporal : TemporalSchedule) :
    Sent crates none none temporal temporal := by
  constructor
  · intro sent impossible
    cases impossible
  · intro _same
    rfl
  · rfl
  · rfl
  · rfl

theorem updateSpec_sent (grammar : HumantimeGrammar crates.humantime) (asked : Option Value)
    (outcome : Outcome) (existing : Row) (temporal : TemporalSchedule) :
    ∃ after result,
      updateSpec crates asked outcome existing (some temporal) = (some after, result) ∧
        Sent crates (specEffect crates asked outcome).1 none temporal after ∧
        ((specEffect crates asked outcome).2 = true →
          result = .ok ((specEffect crates asked outcome).1.getD existing.spec)) ∧
        ((specEffect crates asked outcome).2 = false → ∃ err, result = .error err) := by
  cases asked with
  | none =>
      refine ⟨temporal, .ok existing.spec, rfl, sent_nothing temporal, fun _ => rfl, ?_⟩
      intro impossible
      cases impossible
  | some raw =>
      unfold updateSpec specEffect
      dsimp only
      cases normalised : normaliseSpec crates raw with
      | error problem =>
          refine ⟨temporal, .error (.badRequest problem), rfl, sent_nothing temporal, ?_,
            fun _ => ⟨_, rfl⟩⟩
          intro impossible
          cases impossible
      | ok spec =>
          dsimp only
          unfold bridgeUpdate
          by_cases refused : rejected spec = true
          · rw [scheduleSpec_rejected refused {} rfl, if_pos refused]
            refine ⟨temporal, .error .external, rfl, sent_nothing temporal, ?_, fun _ => ⟨_, rfl⟩⟩
            intro impossible
            cases impossible
          · have accepted : Accepted crates spec := ⟨raw, normalised⟩
            obtain ⟨after, built⟩ := scheduleSpec_sent grammar accepted
              (Bool.eq_false_iff.mpr refused) {} rfl
            have sent : Sent crates (some spec) none temporal
                { temporal with spec := after } := by
              constructor
              · intro other same
                cases same
                exact ⟨accepted, built⟩
              · intro impossible
                cases impossible
              · rfl
              · rfl
              · rfl
            rw [built, if_neg refused]
            cases outcome with
            | done =>
                refine ⟨_, .ok spec, rfl, sent, fun _ => rfl, ?_⟩
                intro impossible
                cases impossible
            | refused =>
                refine ⟨temporal, .error .external, rfl, sent_nothing temporal, ?_,
                  fun _ => ⟨_, rfl⟩⟩
                intro impossible
                cases impossible
            | lost =>
                refine ⟨_, .error .external, rfl, sent, ?_, fun _ => ⟨_, rfl⟩⟩
                intro impossible
                cases impossible

theorem updateEnabled_sent {spec : Option Spec} {before temporal : TemporalSchedule}
    (sent : Sent crates spec none before temporal) (asked : Option Bool)
    (outcome : Outcome) (existing : Row) :
    ∃ after result, updateEnabled asked outcome existing (some temporal) = (some after, result) ∧
      Sent crates spec (enabledEffect asked outcome).1 before after ∧
      ((enabledEffect asked outcome).2 = true →
        result = .ok ((enabledEffect asked outcome).1.getD existing.enabled)) ∧
      ((enabledEffect asked outcome).2 = false → ∃ err, result = .error err) := by
  cases asked with
  | none =>
      refine ⟨temporal, .ok existing.enabled, rfl, sent, fun _ => rfl, ?_⟩
      intro impossible
      cases impossible
  | some enabled =>
      have flagged : Sent crates spec (some enabled) before
          { temporal with paused := !enabled } :=
        ⟨sent.newSpec, sent.oldSpec, sent.overlap, sent.catchup, rfl⟩
      cases outcome with
      | done =>
          refine ⟨_, .ok enabled, rfl, flagged, fun _ => rfl, ?_⟩
          intro impossible
          cases impossible
      | refused =>
          refine ⟨temporal, .error .external, rfl, sent, ?_, fun _ => ⟨_, rfl⟩⟩
          intro impossible
          cases impossible
      | lost =>
          refine ⟨_, .error .external, rfl, flagged, ?_, fun _ => ⟨_, rfl⟩⟩
          intro impossible
          cases impossible

theorem Sent.spec_eq (grammar : HumantimeGrammar crates.humantime) {spec : Spec}
    {enabled : Option Bool} {before after : TemporalSchedule}
    (sent : Sent crates (some spec) enabled before after) (readable : Readable spec) :
    rowCalendar crates.humantime spec = some after.spec.calendar ∧ after.spec.timeZoneName = "" := by
  obtain ⟨accepted, built⟩ := sent.newSpec spec rfl
  obtain ⟨calendar, meant, made⟩ := @scheduleSpec_readable crates grammar spec accepted
    readable {} ⟨rfl, rfl⟩
  rw [built] at made
  rw [Option.some.inj made]
  exact ⟨meant, rfl⟩

theorem matches_of_repeats (grammar : HumantimeGrammar crates.humantime) {row : Row}
    {spec : Option Spec} {enabled : Option Bool} {before after : TemporalSchedule}
    (agrees : Matches crates.humantime row before)
    (sent : Sent crates spec enabled before after) (repeats : Repeats row spec enabled) :
    Matches crates.humantime row after := by
  have paused : after.paused = !row.enabled := by
    rw [sent.paused]
    cases enabled with
    | none => exact agrees.paused
    | some flag =>
        rw [repeats.sameFlag flag rfl]
        rfl
  have overlap := sent.overlap.trans agrees.overlap
  have catchup := sent.catchup.trans agrees.catchup
  cases spec with
  | none =>
      have same := sent.oldSpec rfl
      refine ⟨?_, ?_, overlap, catchup, paused⟩
      · rw [same]
        exact agrees.calendar
      · rw [same]
        exact agrees.sameZone
  | some asked =>
      obtain ⟨readable, same, utc⟩ := repeats.sameSpec asked rfl
      obtain ⟨calendar, zoneless⟩ := sent.spec_eq grammar readable
      refine ⟨?_, ?_, overlap, catchup, paused⟩
      · rw [← same]
        exact calendar
      · rw [zoneless, utc]
        rfl

/-- The row that an update writes. -/
def updatedRow (row : Row) (req : UpdateSchedule) (spec : Option Spec) (enabled : Option Bool)
    (overlap : Overlap) : Row :=
  { spec := spec.getD row.spec
    timezone := req.timezone.getD row.timezone
    overlap := overlap
    catchupWindowSeconds :=
      (req.catchupWindowSeconds.map (fun c => max c 0)).getD row.catchupWindowSeconds
    enabled := enabled.getD row.enabled }

theorem matches_of_restates (grammar : HumantimeGrammar crates.humantime) {row : Row}
    {req : UpdateSchedule} {spec : Option Spec} {enabled : Option Bool}
    {before after : TemporalSchedule} (agrees : Matches crates.humantime row before)
    (sent : Sent crates spec enabled before after) (restates : Restates row req spec) :
    Matches crates.humantime (updatedRow row req spec enabled row.overlap) after := by
  have paused : after.paused = !(enabled.getD row.enabled) := by
    rw [sent.paused]
    cases enabled with
    | none => exact agrees.paused
    | some flag => rfl
  have catchup : after.catchupWindow =
      (req.catchupWindowSeconds.map (fun c => max c 0)).getD row.catchupWindowSeconds *
        1000000000 := by
    rw [sent.catchup, agrees.catchup]
    cases asked : req.catchupWindowSeconds with
    | none => rfl
    | some c =>
        rw [Option.map_some, Option.getD_some, restates.sameCatchup c asked]
  have overlap := sent.overlap.trans agrees.overlap
  have zones := restates.sameZone
  cases spec with
  | none =>
      have same := sent.oldSpec rfl
      refine ⟨?_, ?_, overlap, catchup, paused⟩
      · rw [same]
        exact agrees.calendar
      · rw [same, agrees.sameZone]
        exact zones.symm
  | some asked =>
      obtain ⟨calendar, zoneless⟩ := sent.spec_eq grammar (restates.readable asked rfl)
      refine ⟨calendar, ?_, overlap, catchup, paused⟩
      rw [zoneless]
      exact zones.symm

private theorem updateOverlap_refused {asked : Option String}
    (refused : overlapAccepted asked = false)
    (row : Row) : ∃ err, updateOverlap asked row = .error err := by
  cases asked with
  | none => cases refused
  | some text =>
      have unknown : overlapOf text = none := Option.isSome_eq_false_iff.mp refused |>
        Option.isNone_iff_eq_none.mp
      unfold updateOverlap
      dsimp only
      rw [unknown]
      exact ⟨_, rfl⟩

private theorem updateOverlap_eq {asked : Option String} {row : Row}
    (same : ∀ text, asked = some text → overlapOf text = some row.overlap) :
    updateOverlap asked row = .ok row.overlap := by
  cases asked with
  | none => rfl
  | some text =>
      unfold updateOverlap
      dsimp only
      rw [same text rfl]

theorem write_agrees (grammar : HumantimeGrammar crates.humantime) {req : UpdateSchedule}
    {env : UpdateEnv} {row : Row} {spec : Option Spec} {enabled : Option Bool}
    {before after : TemporalSchedule} (agrees : Matches crates.humantime row before)
    (sent : Sent crates spec enabled before after)
    (stuck : overlapAccepted req.overlapPolicy = false ∨ env.row = .refused →
      Repeats row spec enabled)
    (written : ¬ (overlapAccepted req.overlapPolicy = false ∨ env.row = .refused) →
      Restates row req spec) :
    (∃ err, updateOverlap req.overlapPolicy row = .error err ∧
        Matches crates.humantime row after) ∨
      ∃ overlap, updateOverlap req.overlapPolicy row = .ok overlap ∧
        ∃ stored, (attempt env.row (some row)
            (some (updatedRow row req spec enabled overlap))).1 = some stored ∧
          Matches crates.humantime stored after := by
  cases accepted : overlapAccepted req.overlapPolicy with
  | false =>
      obtain ⟨err, refused⟩ := updateOverlap_refused accepted row
      exact .inl ⟨err, refused, matches_of_repeats grammar agrees sent (stuck (.inl accepted))⟩
  | true =>
      apply Or.inr
      by_cases refused : env.row = .refused
      · have repeats := stuck (.inr refused)
        obtain ⟨overlap, chosen⟩ : ∃ overlap, updateOverlap req.overlapPolicy row = .ok overlap := by
          unfold updateOverlap
          cases asked : req.overlapPolicy with
          | none => exact ⟨_, rfl⟩
          | some text =>
              rw [asked] at accepted
              obtain ⟨overlap, known⟩ := Option.isSome_iff_exists.mp accepted
              dsimp only
              rw [known]
              exact ⟨overlap, rfl⟩
        refine ⟨overlap, chosen, row, ?_, matches_of_repeats grammar agrees sent repeats⟩
        rw [refused]
        rfl
      · have restates := written (by
          rintro (unknown | down)
          · rw [accepted] at unknown
            cases unknown
          · exact refused down)
        refine ⟨row.overlap, updateOverlap_eq restates.sameOverlap,
          updatedRow row req spec enabled row.overlap, ?_,
          matches_of_restates grammar agrees sent restates⟩
        cases ended : env.row with
        | done => rfl
        | lost => rfl
        | refused => exact absurd ended refused

theorem update_agrees (grammar : HumantimeGrammar crates.humantime) {req : UpdateSchedule}
    {env : UpdateEnv} {row : Row} {temporal : TemporalSchedule}
    (agrees : Matches crates.humantime row temporal)
    (kept : env.admits req → UpdateKept crates req env row) :
    Agrees crates.humantime (updateSchedule crates req env
      { row := some row, temporal := some temporal }).1 := by
  unfold updateSchedule
  split
  · exact agrees
  · rename_i mayEdit
    split
    · exact agrees
    · rename_i licensed
      split
      · exact agrees
      · rename_i fetched
        have conditions := kept ⟨Bool.not_eq_false _ ▸ mayEdit, licensed, Bool.not_eq_false _ ▸ fetched⟩
        unfold UpdateKept at conditions
        dsimp only at conditions ⊢
        obtain ⟨sentSpec, result, specPart, afterSpec, goesOn, stops⟩ :=
          @updateSpec_sent crates grammar req.spec env.spec row temporal
        rw [specPart]
        cases specAcked : (specEffect crates req.spec env.spec).2 with
        | false =>
            obtain ⟨err, failed⟩ := stops specAcked
            rw [failed]
            rw [specAcked, if_pos rfl] at conditions
            exact matches_of_repeats grammar agrees afterSpec conditions
        | true =>
            rw [goesOn specAcked]
            rw [specAcked, if_neg (by decide)] at conditions
            dsimp only
            obtain ⟨sentBoth, flagResult, flagPart, afterBoth, flagGoesOn, flagStops⟩ :=
              updateEnabled_sent afterSpec req.enabled env.enabled row
            rw [flagPart]
            cases flagAcked : (enabledEffect req.enabled env.enabled).2 with
            | false =>
                obtain ⟨err, failed⟩ := flagStops flagAcked
                rw [failed]
                rw [if_pos (.inl flagAcked)] at conditions
                exact matches_of_repeats grammar agrees afterBoth conditions
            | true =>
                rw [flagGoesOn flagAcked]
                have stuck : overlapAccepted req.overlapPolicy = false ∨ env.row = .refused →
                    Repeats row (specEffect crates req.spec env.spec).1
                      (enabledEffect req.enabled env.enabled).1 := by
                  intro stops
                  rw [if_pos (.inr stops)] at conditions
                  exact conditions
                have written : ¬ (overlapAccepted req.overlapPolicy = false ∨ env.row = .refused) →
                    Restates row req (specEffect crates req.spec env.spec).1 := by
                  intro passes
                  rw [flagAcked, if_neg] at conditions
                  · exact conditions
                  · rintro (unacked | stops)
                    · cases unacked
                    · exact passes stops
                dsimp only
                rcases write_agrees grammar agrees afterBoth stuck written with
                  ⟨err, refused, same⟩ | ⟨overlap, chosen, stored, stores, same⟩
                · rw [refused]
                  exact same
                · rw [chosen]
                  dsimp only
                  unfold updatedRow at stores
                  split
                  · rename_i kept_row result
                    rw [result] at stores
                    dsimp only at stores ⊢
                    rw [stores]
                    exact same
                  · rename_i kept_row result
                    rw [result] at stores
                    dsimp only at stores ⊢
                    rw [stores]
                    exact same

/-! ### Pause and resume calls -/

theorem setEnabled_agrees {enabled : Bool} {env : PauseEnv} {row : Row}
    {temporal : TemporalSchedule} (agrees : Matches crates.humantime row temporal)
    (kept : env.fetched = true → PauseKept enabled env row) :
    Agrees crates.humantime
      (setEnabled enabled env { row := some row, temporal := some temporal }).1 := by
  have flagged : Matches crates.humantime { row with enabled := enabled }
      { temporal with paused := !enabled } :=
    ⟨agrees.calendar, agrees.sameZone, agrees.overlap, agrees.catchup, rfl⟩
  have flagStays : enabled = row.enabled →
      Matches crates.humantime row { temporal with paused := !enabled } := by
    intro same
    refine ⟨agrees.calendar, agrees.sameZone, agrees.overlap, agrees.catchup, ?_⟩
    rw [same]
  unfold setEnabled
  split
  · exact agrees
  · rename_i fetched
    have conditions := kept (Bool.not_eq_false _ ▸ fetched)
    dsimp only [bridgePause]
    cases bridge : env.bridge with
    | refused => exact agrees
    | lost =>
        rcases conditions with refused | ⟨done, _⟩ | same
        · rw [bridge] at refused
          cases refused
        · rw [bridge] at done
          cases done
        · exact flagStays same
    | done =>
        dsimp only [attempt]
        cases ended : env.row with
        | done => exact flagged
        | lost => exact flagged
        | refused =>
            rcases conditions with refused | ⟨_, follows⟩ | same
            · rw [bridge] at refused
              cases refused
            · exact absurd ended follows
            · exact flagStays same

structure InStep (humantime : String → Option Nat) (store : Store) : Prop where
  agrees : ∀ id, Agrees humantime (store.slots id)
  fresh : ∀ id, store.next ≤ id → store.slots id = {}

theorem agrees_cases {slot : Slot} (agrees : Agrees crates.humantime slot) :
    slot = {} ∨ ∃ row temporal, slot = { row := some row, temporal := some temporal } ∧
      Matches crates.humantime row temporal := by
  obtain ⟨row, temporal⟩ := slot
  cases row with
  | none =>
      cases temporal with
      | none => exact .inl rfl
      | some schedule => exact absurd agrees id
  | some row =>
      cases temporal with
      | none => exact absurd agrees id
      | some schedule => exact .inr ⟨row, schedule, rfl, agrees⟩

private theorem updateSchedule_absent (req : UpdateSchedule) (env : UpdateEnv) :
    (updateSchedule crates req env {}).1 = {} := by
  unfold updateSchedule
  split
  · rfl
  · split
    · rfl
    · split
      · rfl
      · rfl

theorem setEnabled_absent (enabled : Bool) (env : PauseEnv) : (setEnabled enabled env {}).1 = {} := by
  unfold setEnabled
  split
  · rfl
  · rfl

private theorem pauseSchedule_absent (env : PauseEnv) : (pauseSchedule env {}).1 = {} := by
  unfold pauseSchedule
  split
  · rfl
  · exact setEnabled_absent false env

private theorem resumeSchedule_absent (env : PauseEnv) : (resumeSchedule env {}).1 = {} := by
  unfold resumeSchedule
  split
  · rfl
  · split
    · rfl
    · exact setEnabled_absent true env

theorem InStep.set {store : Store} (inStep : InStep crates.humantime store) {id : Nat} {slot : Slot}
    (agrees : Agrees crates.humantime slot) (absent : store.slots id = {} → slot = {}) :
    InStep crates.humantime (store.set id slot) := by
  constructor
  · intro other
    unfold Store.set
    dsimp only
    split
    · exact agrees
    · exact inStep.agrees other
  · intro other later
    unfold Store.set
    dsimp only
    split
    · rename_i same
      rw [same] at later
      exact absent (inStep.fresh id later)
    · exact inStep.fresh other later

theorem InStep.change {store : Store} (inStep : InStep crates.humantime store) (id : Nat)
    (change : Slot → Slot) (onAbsent : change {} = {})
    (onRow : ∀ row temporal, store.slots id = { row := some row, temporal := some temporal } →
      Matches crates.humantime row temporal →
      Agrees crates.humantime (change { row := some row, temporal := some temporal })) :
    InStep crates.humantime (store.set id (change (store.slots id))) := by
  apply inStep.set
  · rcases agrees_cases (inStep.agrees id) with absent | ⟨row, temporal, shape, agrees⟩
    · rw [absent, onAbsent]
      trivial
    · rw [shape]
      exact onRow row temporal shape agrees
  · intro absent
    rw [absent, onAbsent]

theorem call_inStep (grammar : HumantimeGrammar crates.humantime) {store : Store} {action : Call}
    (kept : Kept crates store action) (inStep : InStep crates.humantime store) :
    InStep crates.humantime (call crates store action) := by
  cases action with
  | create req env =>
      have empty := inStep.fresh store.next (Nat.le_refl _)
      have agrees := create_agrees grammar kept
      constructor
      · intro other
        dsimp only [call, Store.set]
        rw [empty]
        split
        · exact agrees
        · exact inStep.agrees other
      · intro other later
        dsimp only [call, Store.set] at later ⊢
        rw [if_neg (by omega)]
        exact inStep.fresh other (by omega)
  | update id req env =>
      apply inStep.change id (fun slot => (updateSchedule crates req env slot).1)
        (updateSchedule_absent req env)
      intro row temporal shape agrees
      apply update_agrees grammar agrees
      intro admitted
      apply kept admitted
      rw [shape]
  | pause id env =>
      apply inStep.change id (fun slot => (pauseSchedule env slot).1) (pauseSchedule_absent env)
      intro row temporal shape agrees
      dsimp only [pauseSchedule]
      split
      · exact agrees
      · rename_i operates
        apply setEnabled_agrees agrees
        intro fetched
        apply kept (Bool.not_eq_false _ ▸ operates) fetched
        rw [shape]
  | resume id env =>
      apply inStep.change id (fun slot => (resumeSchedule env slot).1) (resumeSchedule_absent env)
      intro row temporal shape agrees
      dsimp only [resumeSchedule]
      split
      · exact agrees
      · rename_i operates
        split
        · exact agrees
        · rename_i licensed
          apply setEnabled_agrees agrees
          intro fetched
          apply kept (Bool.not_eq_false _ ▸ operates) (Bool.not_eq_false _ ▸ licensed) fetched
          rw [shape]

end Steps

private theorem inStep_empty (humantime : String → Option Nat) : InStep humantime {} :=
  ⟨fun _ => trivial, fun _ _ => rfl⟩

def step (crates : Crates) (store : Store) (action : Call) :
    Option Store := some (call crates store action)

/-- In a run of kept calls the stores agree after each of them, and an interval
means the same on both sides exactly when it is written as the bridge reads it. -/
theorem schedules_in_step {crates : Crates} (grammar : HumantimeGrammar crates.humantime)
    :
    (∀ calls, Obeys (step crates) (Kept crates) {} calls →
      ∀ early late reached, calls = early ++ late →
        run (step crates) {} early = some reached →
        ∀ id, Agrees crates.humantime (reached.slots id)) ∧
      ∀ text duration, crates.humantime text = some duration →
        (parseDuration text = some (duration : Int) ↔ BridgeInterval text) := by
  constructor
  · intro calls obeys early late reached parts ran
    rw [parts] at obeys
    have preserved : ∀ store action next, Kept crates store action →
        InStep crates.humantime store → step crates store action = some next →
        InStep crates.humantime next := by
      intro store action next kept inStep taken
      cases taken
      exact call_inStep grammar kept inStep
    exact (invariant_of_obeys preserved early {} reached (inStep_empty _) obeys.left ran).agrees
  · intro text duration accepted
    exact parseDuration_eq_iff grammar accepted

def knownTexts : Crates where
  cronSchedule text := text == "0 0 2 * * *"
  humantime text :=
    if text = "1h" then some 3600000000000
    else if text = "1.5h" then some 5400000000000
    else if text = "1day" then some 86400000000000
    else none

def oneSpan (places : Option (List Char)) (plain : ∀ c ∈ places.getD [], c.isDigit = true)
    (name : String) (unit : Nat) (known : (name, unit) ∈ humantimeUnits) : Span where
  blank := []
  first := '1'
  others := []
  places := places
  name := name.toList
  unit := unit
  spaces := List.forall_mem_nil _
  digit := rfl
  digits := List.forall_mem_nil _
  decimals c member := .inl (plain c member)
  known := by
    rw [String.ofList_toList]
    exact known

def hourSpan : Span := oneSpan none (List.forall_mem_nil _) "h" 3600000000000 (by decide +kernel)

def halfSpan : Span :=
  oneSpan (some ['5']) (List.forall_mem_singleton.mpr rfl) "h" 3600000000000 (by decide +kernel)

def daySpan : Span := oneSpan none (List.forall_mem_nil _) "day" 86400000000000 (by decide +kernel)

theorem interval_single {text : String} {span : Span} (written : text.toList = span.text) :
    Interval text [span] [] := by
  refine ⟨List.cons_ne_nil _ _, List.forall_mem_nil _, ?_⟩
  rw [written, List.append_nil, List.flatMap_singleton]

theorem knownTexts_grammar : HumantimeGrammar knownTexts.humantime := by
  constructor
  intro text duration accepted
  apply Or.inr
  unfold knownTexts at accepted
  dsimp only at accepted
  split at accepted
  · rename_i hour
    cases accepted
    refine ⟨[hourSpan], [], interval_single ?_, by decide +kernel⟩
    rw [hour]
    decide +kernel
  · split at accepted
    · rename_i half
      cases accepted
      refine ⟨[halfSpan], [], interval_single ?_, by decide +kernel⟩
      rw [half]
      decide +kernel
    · split at accepted
      · rename_i day
        cases accepted
        refine ⟨[daySpan], [], interval_single ?_, by decide +kernel⟩
        rw [day]
        decide +kernel
      · cases accepted

def hourly (timezone : Option String) : CreateSchedule :=
  { spec := .object [("every", .text "1h")], timezone := timezone }

def nightly : UpdateSchedule :=
  { spec := some (.object [("cron", .text "0 2 * * *")]), enabled := some true }

private theorem hourInterval : BridgeInterval "1h" := by
  apply bridgeInterval_of_whole (@interval_single _ hourSpan (by decide +kernel))
  · intro span member
    rw [List.mem_singleton.mp member]
    exact ⟨rfl, List.forall_mem_nil _, List.forall_mem_nil _, by decide +kernel⟩
  · intro span member
    rw [List.mem_singleton.mp member]
    exact one_dvd _
  · decide +kernel

private theorem createRow_hourly (timezone : Option String) :
    createRow knownTexts (hourly timezone) {} =
      .ok
        { spec := .every "1h"
          timezone := timezone.getD "UTC"
          overlap := .skip
          catchupWindowSeconds := 3600
          enabled := true } := rfl

private theorem normaliseSpec_nightly :
    normaliseSpec knownTexts (.object [("cron", .text "0 2 * * *")]) = .ok (.cron "0 2 * * *") := by
  have key : getKey (.object [("cron", .text "0 2 * * *")]) "cron" = some (.text "0 2 * * *") := rfl
  have trimmed : Batch.trimSpace "0 2 * * *" = "0 2 * * *" := by
    decide +kernel
  have fields : fieldCount "0 2 * * *" = 5 := by
    decide +kernel
  have known : knownTexts.cronSchedule ("0 " ++ "0 2 * * *") = true := by
    decide +kernel
  unfold normaliseSpec
  rw [key]
  simp only [asStr, trimmed, cronForValidation, fields, if_true, known]

def defaultRun : List Call := [.create (hourly none) {}, .pause 0 {}, .update 0 nightly {}]

theorem defaultRun_obeys :
    Obeys (step knownTexts) (Kept knownTexts) {} defaultRun := by
  refine ⟨?_, ?_, ?_, trivial⟩
  · intro row checked
    rw [createRow_hourly] at checked
    cases checked
    exact .inr ⟨rfl, .inl ⟨hourInterval, rfl, .inl rfl⟩⟩
  · intro _operates _fetched row _stored
    exact .inr (.inl ⟨rfl, nofun⟩)
  · intro _admitted row stored
    have utc : row.timezone = "UTC" := by
      cases stored
      rfl
    have sent : specEffect knownTexts nightly.spec .done =
        (some (.cron "0 2 * * *"), true) := by
      unfold specEffect nightly
      dsimp only
      rw [normaliseSpec_nightly]
      rfl
    unfold UpdateKept
    dsimp only
    rw [sent, if_neg (by decide), if_neg (by decide)]
    constructor
    · intro spec same
      cases same
      trivial
    · change zone row.timezone = "UTC"
      rw [utc]
      rfl
    · intro asked impossible
      cases impossible
    · intro asked impossible
      cases impossible

theorem default_run_in_step :
    (∃ reached, run (step knownTexts) {} defaultRun = some reached ∧
      ∀ id, Agrees knownTexts.humantime (reached.slots id)) ∧
    BridgeInterval "1h" ∧ BridgeInterval "1.5h" := by
  refine ⟨?_, ?_, ?_⟩
  · obtain ⟨reached, ran⟩ : ∃ reached, run (step knownTexts) {} defaultRun =
        some reached := ⟨_, rfl⟩
    refine ⟨reached, ran, ?_⟩
    exact (schedules_in_step knownTexts_grammar).1 defaultRun defaultRun_obeys
      defaultRun [] reached (List.append_nil _).symm ran
  · apply ((schedules_in_step knownTexts_grammar).2 "1h" 3600000000000 rfl).mp
    decide +kernel
  · apply ((schedules_in_step knownTexts_grammar).2 "1.5h" 5400000000000 rfl).mp
    decide +kernel

/-- Nothing fails in these runs: the one update changes the time zone, the other
the spec. -/
theorem updates_out_of_step :
    HumantimeGrammar knownTexts.humantime ∧
      (∃ reached, run (step knownTexts) {}
          [.create (hourly (some "Europe/Berlin")) {},
            .update 0 { timezone := some "Asia/Tokyo" } {}] = some reached ∧
        ¬ Agrees knownTexts.humantime (reached.slots 0)) ∧
      (∃ reached, run (step knownTexts) {}
          [.create (hourly (some "Europe/Berlin")) {}, .update 0 nightly {}] = some reached ∧
        ¬ Agrees knownTexts.humantime (reached.slots 0)) ∧
      knownTexts.humantime "1day" = some 86400000000000 ∧
      parseDuration "1day" = none := by
  refine ⟨knownTexts_grammar, ⟨_, rfl, ?_⟩, ⟨_, rfl, ?_⟩, rfl, by decide +kernel⟩
  · intro agrees
    exact absurd (Matches.sameZone agrees) (by decide +kernel)
  · intro agrees
    exact absurd (Matches.sameZone agrees) (by decide +kernel)

end MigrationPlatform.Schedules
