/-
The invariant of the stage scheduler.

Each place of the loop makes one of three moves on one stage: it skips it,
starts it, or settles it. The invariant ties the status of every stage to its
whole history in the log, and each move keeps it.
-/

import MigrationPlatform.Batch.StageDag

namespace MigrationPlatform.Batch

def Needs (stages : List ResolvedStage) (other st : ResolvedStage) : Prop :=
  other ∈ stages ∧ other.stageKey ∈ st.dependsOn

structure StageGraph (stages : List ResolvedStage) : Prop where
  distinct : (stages.map ResolvedStage.stageKey).Nodup
  known : ∀ st ∈ stages, ∀ d ∈ st.dependsOn, ∃ other ∈ stages, other.stageKey = d
  acyclic : ∀ st ∈ stages, Acc (Needs stages) st

theorem mem_resolvedStages {m : Manifest} {rowIDs : Nat → Int} {st : ResolvedStage}
    (member : st ∈ m.resolvedStages rowIDs) :
    ∃ source ∈ m.stages, st.stageKey = source.id ∧ st.dependsOn = source.dependsOn ∧
      st.onFailure = materializedPolicy m.onStageFailure (m.effectiveOnFailure source) := by
  obtain ⟨i, bound, rfl⟩ := List.mem_mapIdx.mp member
  obtain ⟨source, sourceMember, same⟩ := List.mem_map.mp (List.getElem_mem bound)
  refine ⟨source, sourceMember, ?_, ?_, ?_⟩
  · rw [← same]
  · rw [← same]
  · rw [← same]

theorem resolvedStages_keys (m : Manifest) (rowIDs : Nat → Int) :
    (m.resolvedStages rowIDs).map ResolvedStage.stageKey = stageIDs m.stages := by
  apply List.ext_getElem
  · simp [Manifest.resolvedStages, materializeBatchStages, Manifest.stagedFiles, stageIDs]
  · intro i _left _right
    simp [Manifest.resolvedStages, materializeBatchStages, Manifest.stagedFiles, stageIDs]

theorem resolvedStages_length (m : Manifest) (rowIDs : Nat → Int) :
    (m.resolvedStages rowIDs).length = m.stages.length := by
  have keys := congrArg List.length (resolvedStages_keys m rowIDs)
  rw [List.length_map, stageIDs, List.length_map] at keys
  exact keys

private theorem resolvedStages_acc {m : Manifest} (formed : WellFormed m.stages)
    (rowIDs : Nat → Int)
    {id : String} (accessible : Acc (fun d id => d ∈ dependenciesOf m.stages id) id) :
    ∀ st ∈ m.resolvedStages rowIDs, st.stageKey = id →
      Acc (Needs (m.resolvedStages rowIDs)) st := by
  induction accessible with
  | intro id _below ih =>
      intro st member key
      constructor
      rintro other ⟨otherMember, names⟩
      obtain ⟨source, sourceMember, sourceKey, sourceDeps, _⟩ := mem_resolvedStages member
      have direct : other.stageKey ∈ dependenciesOf m.stages id := by
        rw [← key, sourceKey, dependenciesOf_eq formed.distinct sourceMember, ← sourceDeps]
        exact names
      exact ih other.stageKey direct other otherMember rfl

theorem Manifest.validate_graph {m validated : Manifest} (valid : m.validate = .ok validated)
    (rowIDs : Nat → Int) : StageGraph (validated.resolvedStages rowIDs) := by
  have formed := Manifest.validate_wellFormed valid
  constructor
  · rw [resolvedStages_keys]
    exact formed.distinct
  · intro st member d names
    obtain ⟨source, sourceMember, _, sourceDeps, _⟩ := mem_resolvedStages member
    rw [sourceDeps] at names
    have known := formed.known source sourceMember d names
    rw [← resolvedStages_keys validated rowIDs] at known
    obtain ⟨other, otherMember, key⟩ := List.mem_map.mp known
    exact ⟨other, otherMember, key⟩
  · intro st member
    have inside : st.stageKey ∈ stageIDs validated.stages := by
      rw [← resolvedStages_keys validated rowIDs]
      exact List.mem_map_of_mem member
    exact resolvedStages_acc formed rowIDs (formed.acyclic _ inside) st member rfl

def tally (stages : List ResolvedStage) (p : Option StageRunStatus → Bool)
    (status : StageStatuses) : Nat :=
  stages.countP (fun st => p (status st.stageKey))

def isPending (status : Option StageRunStatus) : Bool := decide (status = some .pending)

def isSucceeded (status : Option StageRunStatus) : Bool := decide (status = some .succeeded)

def isUnsuccessful (status : Option StageRunStatus) : Bool :=
  decide (status = some .failed) || decide (status = some .skipped)

section Keys

variable {stages : List ResolvedStage} (distinct : (stages.map ResolvedStage.stageKey).Nodup)

include distinct

theorem eq_of_stageKey_eq {st other : ResolvedStage} (member : st ∈ stages)
    (otherMember : other ∈ stages) (key : st.stageKey = other.stageKey) : st = other :=
  List.inj_on_of_nodup_map distinct member otherMember key

theorem byKey_eq {st : ResolvedStage} (member : st ∈ stages) : byKey stages st.stageKey = st := by
  unfold byKey
  cases found : stages.reverse.find? (fun other => decide (other.stageKey = st.stageKey)) with
  | none =>
      have missed := List.find?_eq_none.mp found st (List.mem_reverse.mpr member)
      exact absurd (decide_eq_true (Eq.refl st.stageKey)) missed
  | some other =>
      have matched := List.find?_some found
      have key : other.stageKey = st.stageKey := of_decide_eq_true matched
      have otherMember := List.mem_reverse.mp (List.mem_of_find?_eq_some found)
      exact eq_of_stageKey_eq distinct otherMember member key

theorem tally_update {st : ResolvedStage} (member : st ∈ stages)
    (p : Option StageRunStatus → Bool) (status : StageStatuses) (value : Option StageRunStatus) :
    tally stages p (Function.update status st.stageKey value) + (p (status st.stageKey)).toNat =
      tally stages p status + (p value).toNat := by
  unfold tally
  induction stages with
  | nil => cases member
  | cons first rest ih =>
      obtain ⟨fresh, distinctRest⟩ := List.nodup_cons.mp distinct
      rw [List.countP_cons, List.countP_cons]
      rcases List.mem_cons.mp member with same | later
      · subst same
        have untouched : rest.countP (fun other =>
            p (Function.update status st.stageKey value other.stageKey)) =
              rest.countP (fun other => p (status other.stageKey)) := by
          apply List.countP_congr
          intro other otherMember
          have different : other.stageKey ≠ st.stageKey := by
            intro equal
            apply fresh
            rw [← equal]
            exact List.mem_map_of_mem otherMember
          rw [Function.update_of_ne different]
        rw [untouched, Function.update_self]
        cases p (status st.stageKey) <;> cases p value <;> simp
      · have different : first.stageKey ≠ st.stageKey := by
          intro equal
          apply fresh
          rw [equal]
          exact List.mem_map_of_mem later
        rw [Function.update_of_ne different]
        have inner := ih distinctRest later
        omega

theorem tally_moved {st : ResolvedStage} (member : st ∈ stages) {status : StageStatuses}
    (pending : status st.stageKey = some .pending) (p : Option StageRunStatus → Bool)
    (uncounted : p (some .pending) = false) (value : StageRunStatus) :
    tally stages p status + (p (some value)).toNat =
      tally stages p (Function.update status st.stageKey (some value)) := by
  have moved := tally_update distinct member p status (some value)
  rw [pending, uncounted] at moved
  exact moved.symm

end Keys

def eventsOf (st : ResolvedStage) (log : List StageEvent) : List StageEvent :=
  log.filter (fun event => decide (event.stage = st))

theorem eventsOf_cons_same (event : StageEvent) (log : List StageEvent) :
    eventsOf event.stage (event :: log) = event :: eventsOf event.stage log :=
  List.filter_cons_of_pos (decide_eq_true rfl)

private theorem mem_of_mem_eventsOf {st : ResolvedStage} {event : StageEvent}
    {log : List StageEvent}
    (member : event ∈ eventsOf st log) : event ∈ log :=
  (List.mem_filter.mp member).1

theorem observe_mem_start_cons {st other : ResolvedStage} {succeeded : Bool}
    {log : List StageEvent} :
    .observe other succeeded ∈ StageEvent.start st :: log ↔ .observe other succeeded ∈ log := by
  simp

theorem observe_mem_finalize_cons {st other : ResolvedStage} {status error : String}
    {succeeded : Bool} {log : List StageEvent} :
    .observe other succeeded ∈ StageEvent.finalize st status error :: log ↔
      .observe other succeeded ∈ log := by
  simp

/-- The whole history of a stage, newest event first, by its status. -/
inductive Recorded (st : ResolvedStage) (inFlight : Prop) :
    Option StageRunStatus → List StageEvent → Prop
  | waiting (idle : ¬ inFlight) : Recorded st inFlight (some .pending) []
  | started (flying : inFlight) : Recorded st inFlight (some .pending) [.start st]
  | succeeded (idle : ¬ inFlight) : Recorded st inFlight (some .succeeded)
      [.finalize st "succeeded" "", .observe st true, .start st]
  | failed (idle : ¬ inFlight) (error : String) : Recorded st inFlight (some .failed)
      [.finalize st "failed" error, .observe st false, .start st]
  | skipped (idle : ¬ inFlight) (reason : String) : Recorded st inFlight (some .skipped)
      [.finalize st "failed" reason]

/-- Every start stands behind the successes it needs and behind no failure of
a stage without `continue`. -/
def StartsAllowed (stages : List ResolvedStage) : List StageEvent → Prop
  | [] => True
  | .start st :: earlier =>
      (∀ d ∈ st.dependsOn, ∃ other ∈ stages, other.stageKey = d ∧ .observe other true ∈ earlier) ∧
        (∀ other, .observe other false ∈ earlier → other.onFailure = "continue") ∧
          StartsAllowed stages earlier
  | .observe _ _ :: earlier => StartsAllowed stages earlier
  | .finalize _ _ _ :: earlier => StartsAllowed stages earlier

def StageEnv.succeeds (env : StageEnv) (st : ResolvedStage) : Bool :=
  match env.startBatchStageJob st with
  | .error _ => false
  | .ok _ =>
      match env.startChild st with
      | .error e => e.isAlreadyStarted && (stageError (env.child st)).isNone
      | .ok _ => (stageError (env.child st)).isNone

/-- `wave` holds the stages that have started and are not settled yet. -/
structure Sound (env : StageEnv) (stages wave : List ResolvedStage) (dag : Dag) : Prop where
  recorded : ∀ st ∈ stages,
    Recorded st (st ∈ wave) (dag.status st.stageKey) (eventsOf st dag.log)
  within : ∀ event ∈ dag.log, event.stage ∈ stages
  stagesOK : dag.stagesOK = tally stages isSucceeded dag.status
  stagesFailed : dag.stagesFailed = tally stages isUnsuccessful dag.status
  starts : StartsAllowed stages dag.log
  stopped : dag.stopEarly = true ↔
    ∃ st, .observe st false ∈ dag.log ∧ st.onFailure ≠ "continue"
  outcomes : ∀ st succeeded, .observe st succeeded ∈ dag.log → env.succeeds st = succeeded

structure Idle (stages wave : List ResolvedStage) (dag : Dag) (st : ResolvedStage) : Prop where
  member : st ∈ stages
  pending : dag.status st.stageKey = some .pending
  idle : st ∉ wave

def Dag.skipped (dag : Dag) (st : ResolvedStage) (reason : String) : Dag :=
  { dag with
    status := Function.update dag.status st.stageKey (some .skipped)
    stagesFailed := dag.stagesFailed + 1
    log := .finalize st "failed" reason :: dag.log }

def Dag.settled (dag : Dag) (st : ResolvedStage) (error : Option String) : Dag :=
  ((dag.record (.observe st error.isNone)).settle st error).record
    (.finalize st (settledStatus error) (error.getD ""))

theorem initialDag_sound (env : StageEnv) (stages : List ResolvedStage) :
    Sound env stages [] (initialDag stages) := by
  have reads : ∀ st ∈ stages, (initialDag stages).status st.stageKey = some .pending := by
    intro st member
    exact if_pos (List.mem_map_of_mem member)
  have none : ∀ p : Option StageRunStatus → Bool, p (some .pending) = false →
      0 = tally stages p (initialDag stages).status := by
    intro p misses
    symm
    apply List.countP_eq_zero.mpr
    intro st member
    rw [reads st member, misses]
    exact Bool.false_ne_true
  constructor
  · intro st member
    rw [reads st member]
    exact .waiting List.not_mem_nil
  · intro event impossible
    cases impossible
  · exact none isSucceeded rfl
  · exact none isUnsuccessful rfl
  · trivial
  · constructor
    · intro impossible
      cases impossible
    · rintro ⟨_, impossible, _⟩
      cases impossible
  · intro st succeeded impossible
    cases impossible

section Moves

variable {env : StageEnv} {stages wave : List ResolvedStage} {dag : Dag} {st : ResolvedStage}

theorem Sound.events_of_idle (sound : Sound env stages wave dag) (idle : Idle stages wave dag st) :
    eventsOf st dag.log = [] := by
  have history := sound.recorded st idle.member
  rw [idle.pending] at history
  generalize eventsOf st dag.log = events at history
  cases history with
  | waiting _ => rfl
  | started flying => exact absurd flying idle.idle

theorem Sound.events_of_flying (sound : Sound env stages wave dag) (member : st ∈ stages)
    (flying : st ∈ wave) :
    dag.status st.stageKey = some .pending ∧ eventsOf st dag.log = [.start st] := by
  have history := sound.recorded st member
  generalize dag.status st.stageKey = status at history
  generalize eventsOf st dag.log = events at history
  cases history with
  | waiting idle => exact absurd flying idle
  | started _ => exact ⟨rfl, rfl⟩
  | succeeded idle => exact absurd flying idle
  | failed idle _ => exact absurd flying idle
  | skipped idle _ => exact absurd flying idle

private theorem Sound.observed_of_succeeded (sound : Sound env stages wave dag)
    (member : st ∈ stages)
    (succeeded : dag.status st.stageKey = some .succeeded) : .observe st true ∈ dag.log := by
  have history := sound.recorded st member
  rw [succeeded] at history
  have inside : StageEvent.observe st true ∈ eventsOf st dag.log := by
    generalize eventsOf st dag.log = events at history
    cases history with
    | succeeded _ => exact List.mem_cons_of_mem _ List.mem_cons_self
  exact mem_of_mem_eventsOf inside

theorem Sound.recorded_of_move (distinct : (stages.map ResolvedStage.stageKey).Nodup)
    (sound : Sound env stages wave dag) (member : st ∈ stages) {later : List ResolvedStage}
    {after : Dag} {value : Option StageRunStatus} {events : List StageEvent}
    (status : after.status = Function.update dag.status st.stageKey value)
    (log : after.log = events ++ dag.log) (own : ∀ event ∈ events, event.stage = st)
    (others : ∀ other ≠ st, other ∈ later ↔ other ∈ wave)
    (history : Recorded st (st ∈ later) value (eventsOf st after.log)) :
    ∀ other ∈ stages,
      Recorded other (other ∈ later) (after.status other.stageKey) (eventsOf other after.log) := by
  intro other otherMember
  by_cases same : other = st
  · subst same
    rw [status, Function.update_self]
    exact history
  · have key : other.stageKey ≠ st.stageKey := by
      intro equal
      exact same (eq_of_stageKey_eq distinct otherMember member equal)
    have untouched : eventsOf other after.log = eventsOf other dag.log := by
      rw [log, eventsOf, List.filter_append, List.filter_eq_nil_iff.mpr, List.nil_append, eventsOf]
      intro event inside matched
      have owner := of_decide_eq_true matched
      rw [own event inside] at owner
      exact same owner.symm
    rw [status, Function.update_of_ne key, untouched, others other same]
    exact sound.recorded other otherMember

theorem Sound.skip (distinct : (stages.map ResolvedStage.stageKey).Nodup)
    (sound : Sound env stages wave dag) (idle : Idle stages wave dag st) (reason : String) :
    Sound env stages wave (dag.skipped st reason) := by
  have log : (dag.skipped st reason).log = [.finalize st "failed" reason] ++ dag.log := rfl
  have untold : eventsOf st (dag.skipped st reason).log = [.finalize st "failed" reason] := by
    have extended := eventsOf_cons_same (.finalize st "failed" reason) dag.log
    change eventsOf st (dag.skipped st reason).log = _ :: eventsOf st dag.log at extended
    rw [extended, sound.events_of_idle idle]
  constructor
  · apply sound.recorded_of_move distinct idle.member rfl log
    · intro event inside
      rw [List.mem_singleton.mp inside]
      rfl
    · intro other _different
      exact Iff.rfl
    · rw [untold]
      exact .skipped idle.idle reason
  · intro event inside
    rcases List.mem_cons.mp inside with same | before
    · rw [same]
      exact idle.member
    · exact sound.within event before
  · change dag.stagesOK = tally stages isSucceeded _
    rw [sound.stagesOK]
    exact tally_moved distinct idle.member idle.pending isSucceeded rfl .skipped
  · change dag.stagesFailed + 1 = tally stages isUnsuccessful _
    rw [sound.stagesFailed]
    exact tally_moved distinct idle.member idle.pending isUnsuccessful rfl .skipped
  · exact sound.starts
  · simp only [log, List.singleton_append, observe_mem_finalize_cons]
    exact sound.stopped
  · intro other succeeded inside
    exact sound.outcomes other succeeded (observe_mem_finalize_cons.mp inside)

theorem Sound.start (distinct : (stages.map ResolvedStage.stageKey).Nodup)
    (sound : Sound env stages wave dag) (idle : Idle stages wave dag st)
    (ready : ∀ d ∈ st.dependsOn, ∃ other ∈ stages, other.stageKey = d ∧
      dag.status d = some .succeeded)
    (going : dag.stopEarly = false) :
    Sound env stages (wave ++ [st]) (dag.record (.start st)) := by
  have flying : st ∈ wave ++ [st] := List.mem_append_right _ List.mem_cons_self
  have log : (dag.record (.start st)).log = [.start st] ++ dag.log := rfl
  have unchanged : (dag.record (.start st)).status =
      Function.update dag.status st.stageKey (dag.status st.stageKey) :=
    (Function.update_eq_self st.stageKey dag.status).symm
  have untold : eventsOf st (dag.record (.start st)).log = [.start st] := by
    have extended := eventsOf_cons_same (.start st) dag.log
    change eventsOf st (dag.record (.start st)).log = _ :: eventsOf st dag.log at extended
    rw [extended, sound.events_of_idle idle]
  constructor
  · apply sound.recorded_of_move distinct idle.member unchanged log
    · intro event inside
      rw [List.mem_singleton.mp inside]
      rfl
    · intro other different
      rw [List.mem_append, List.mem_singleton, or_iff_left different]
    · rw [untold, idle.pending]
      exact .started flying
  · intro event inside
    rcases List.mem_cons.mp inside with same | before
    · rw [same]
      exact idle.member
    · exact sound.within event before
  · exact sound.stagesOK
  · exact sound.stagesFailed
  · refine ⟨?_, ?_, sound.starts⟩
    · intro d names
      obtain ⟨other, otherMember, key, succeeded⟩ := ready d names
      rw [← key] at succeeded
      exact ⟨other, otherMember, key, sound.observed_of_succeeded otherMember succeeded⟩
    · intro other observed
      by_contra stops
      have stopped := sound.stopped.mpr ⟨other, observed, stops⟩
      rw [going] at stopped
      cases stopped
  · simp only [log, List.singleton_append, observe_mem_start_cons]
    exact sound.stopped
  · intro other succeeded inside
    exact sound.outcomes other succeeded (observe_mem_start_cons.mp inside)

theorem settled_log (dag : Dag) (st : ResolvedStage) (error : Option String) :
    (dag.settled st error).log =
      [.finalize st (settledStatus error) (error.getD ""), .observe st error.isNone] ++ dag.log := by
  cases error with
  | none => rfl
  | some message => rfl

private theorem eventsOf_settled (dag : Dag) (st : ResolvedStage) (error : Option String) :
    eventsOf st (dag.settled st error).log =
      .finalize st (settledStatus error) (error.getD "") :: .observe st error.isNone ::
        eventsOf st dag.log := by
  rw [settled_log]
  have observed := eventsOf_cons_same (.observe st error.isNone) dag.log
  have finalized := eventsOf_cons_same (.finalize st (settledStatus error) (error.getD ""))
    (.observe st error.isNone :: dag.log)
  exact finalized.trans (congrArg (_ :: ·) observed)

theorem observe_mem_settled {other : ResolvedStage} {succeeded : Bool} {error : Option String} :
    .observe other succeeded ∈ (dag.settled st error).log ↔
      (other = st ∧ succeeded = error.isNone) ∨ .observe other succeeded ∈ dag.log := by
  rw [settled_log]
  change _ ∈ StageEvent.finalize st _ _ :: .observe st _ :: dag.log ↔ _
  rw [observe_mem_finalize_cons, List.mem_cons, StageEvent.observe.injEq]

private theorem Sound.settled_stopped (sound : Sound env stages wave dag) (error : Option String) :
    (dag.settled st error).stopEarly = true ↔
      ∃ other, .observe other false ∈ (dag.settled st error).log ∧ other.onFailure ≠ "continue" := by
  simp only [observe_mem_settled]
  cases error with
  | none =>
      change dag.stopEarly = true ↔ _
      rw [sound.stopped]
      constructor
      · rintro ⟨other, before, stops⟩
        exact ⟨other, .inr before, stops⟩
      · rintro ⟨other, ⟨_, impossible⟩ | before, stops⟩
        · cases impossible
        · exact ⟨other, before, stops⟩
  | some message =>
      change (dag.stopEarly || decide (st.onFailure ≠ "continue")) = true ↔ _
      rw [Bool.or_eq_true, decide_eq_true_iff, sound.stopped]
      constructor
      · rintro (⟨other, before, stops⟩ | stops)
        · exact ⟨other, .inr before, stops⟩
        · exact ⟨st, .inl ⟨rfl, rfl⟩, stops⟩
      · rintro ⟨other, ⟨rfl, _⟩ | before, stops⟩
        · exact .inr stops
        · exact .inl ⟨other, before, stops⟩

theorem Sound.settle (distinct : (stages.map ResolvedStage.stageKey).Nodup)
    (sound : Sound env stages wave dag) (member : st ∈ stages) (flying : st ∈ wave)
    {later : List ResolvedStage} (landed : st ∉ later)
    (others : ∀ other ≠ st, other ∈ later ↔ other ∈ wave) {error : Option String}
    (outcome : env.succeeds st = error.isNone) :
    Sound env stages later (dag.settled st error) := by
  obtain ⟨pending, events⟩ := sound.events_of_flying member flying
  have log := settled_log dag st error
  have own : ∀ event ∈ [StageEvent.finalize st (settledStatus error) (error.getD ""),
      .observe st error.isNone], event.stage = st := by
    intro event inside
    simp only [List.mem_cons, List.not_mem_nil, or_false] at inside
    rcases inside with same | same
    · rw [same]
      rfl
    · rw [same]
      rfl
  constructor
  · have told := eventsOf_settled dag st error
    rw [events] at told
    cases error with
    | none =>
        apply sound.recorded_of_move distinct member rfl log own others
        rw [told]
        exact .succeeded landed
    | some message =>
        apply sound.recorded_of_move distinct member rfl log own others
        rw [told]
        exact .failed landed message
  · intro event inside
    rw [log] at inside
    rcases List.mem_append.mp inside with new | before
    · rw [own event new]
      exact member
    · exact sound.within event before
  · cases error with
    | none =>
        change dag.stagesOK + 1 = tally stages isSucceeded _
        rw [sound.stagesOK]
        exact tally_moved distinct member pending isSucceeded rfl .succeeded
    | some message =>
        change dag.stagesOK = tally stages isSucceeded _
        rw [sound.stagesOK]
        exact tally_moved distinct member pending isSucceeded rfl .failed
  · cases error with
    | none =>
        change dag.stagesFailed = tally stages isUnsuccessful _
        rw [sound.stagesFailed]
        exact tally_moved distinct member pending isUnsuccessful rfl .succeeded
    | some message =>
        change dag.stagesFailed + 1 = tally stages isUnsuccessful _
        rw [sound.stagesFailed]
        exact tally_moved distinct member pending isUnsuccessful rfl .failed
  · rw [log]
    exact sound.starts
  · exact sound.settled_stopped error
  · intro other succeeded inside
    rcases observe_mem_settled.mp inside with ⟨rfl, same⟩ | before
    · rw [same]
      exact outcome
    · exact sound.outcomes other succeeded before

end Moves

/-! ### Why a stage is skipped -/

def Explained (stages : List ResolvedStage) (dag : Dag) : Prop :=
  ∀ st ∈ stages, dag.status st.stageKey = some .skipped →
    dag.stopEarly = true ∨ ∃ d ∈ st.dependsOn, isUnsuccessful (dag.status d) = true

theorem initialDag_explained (stages : List ResolvedStage) :
    Explained stages (initialDag stages) := by
  intro st member skipped
  have pending : (initialDag stages).status st.stageKey = some .pending :=
    if_pos (List.mem_map_of_mem member)
  rw [pending] at skipped
  cases skipped

theorem Explained.move {stages : List ResolvedStage} {dag after : Dag} {key : String}
    {value : Option StageRunStatus} (explained : Explained stages dag)
    (pending : dag.status key = some .pending)
    (status : after.status = Function.update dag.status key value)
    (stop : dag.stopEarly = true → after.stopEarly = true)
    (why : value = some .skipped → ∀ st ∈ stages, st.stageKey = key →
      dag.stopEarly = true ∨ ∃ d ∈ st.dependsOn, isUnsuccessful (dag.status d) = true) :
    Explained stages after := by
  intro st member skipped
  have reason : dag.stopEarly = true ∨
      ∃ d ∈ st.dependsOn, isUnsuccessful (dag.status d) = true := by
    rw [status] at skipped
    by_cases same : st.stageKey = key
    · rw [same, Function.update_self] at skipped
      exact why skipped st member same
    · rw [Function.update_of_ne same] at skipped
      exact explained st member skipped
  rcases reason with stopped | ⟨d, names, unsuccessful⟩
  · exact .inl (stop stopped)
  · refine .inr ⟨d, names, ?_⟩
    have different : d ≠ key := by
      intro equal
      rw [equal, pending] at unsuccessful
      cases unsuccessful
    rw [status, Function.update_of_ne different]
    exact unsuccessful

end MigrationPlatform.Batch
