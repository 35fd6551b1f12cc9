/-
What every run of the stage scheduler does.

The loops of a round keep the invariant, and every round that does not end the
run leaves fewer stages pending; so the run ends, and its log is that of a
sound schedule. Where every policy is `continue`, the dependency graph alone
says which stages are executed.
-/

import MigrationPlatform.Batch.DagInvariant
import Mathlib.Logic.Relation

namespace MigrationPlatform.Batch

open TotalCorrectness

structure StageEnv.Persists (env : StageEnv) : Prop where
  finalizes : ∀ input, env.finalizeBatchStage input = none
  marks : ∀ jobID runID, env.markJobRunning jobID runID = none

structure Consistent (env : StageEnv) (stages wave : List ResolvedStage) (dag : Dag) : Prop where
  sound : Sound env stages wave dag
  explained : Explained stages dag

def pendings (stages : List ResolvedStage) (dag : Dag) : Nat := tally stages isPending dag.status

section Loops

variable {env : StageEnv} {stages wave : List ResolvedStage} {dag : Dag} {st : ResolvedStage}
variable (persists : env.Persists) (graph : StageGraph stages)

include persists in
theorem settleStage_eq (jobID : Int) (error : Option String) :
    settleStage env st jobID error dag = .ok (dag.settled st error) := by
  unfold settleStage finalizeBatchStage
  rw [persists.finalizes]
  rfl

include persists graph in
theorem skipAndMark_eq (member : st ∈ stages) (reason : String) :
    skipAndMark env stages st.stageKey reason dag = .ok (dag.skipped st reason) := by
  unfold skipAndMark skipStage finalizeBatchStage
  rw [byKey_eq graph.distinct member, persists.finalizes]
  rfl

include graph in
theorem Consistent.skip (consistent : Consistent env stages wave dag)
    (idle : Idle stages wave dag st) (reason : String)
    (why : dag.stopEarly = true ∨ ∃ d ∈ st.dependsOn, isUnsuccessful (dag.status d) = true) :
    Consistent env stages wave (dag.skipped st reason) := by
  constructor
  · exact consistent.sound.skip graph.distinct idle reason
  · apply consistent.explained.move idle.pending rfl
    · intro stopped
      exact stopped
    · intro _skipped other otherMember key
      have same := eq_of_stageKey_eq graph.distinct otherMember idle.member key
      subst same
      exact why

include graph in
theorem pendings_skipped (idle : Idle stages wave dag st) (reason : String) :
    pendings stages (dag.skipped st reason) + 1 = pendings stages dag := by
  have moved := tally_update graph.distinct idle.member isPending dag.status (some .skipped)
  rw [idle.pending] at moved
  exact moved

include graph in
theorem Consistent.settle (consistent : Consistent env stages wave dag) (member : st ∈ stages)
    (flying : st ∈ wave) {later : List ResolvedStage} (landed : st ∉ later)
    (others : ∀ other ≠ st, other ∈ later ↔ other ∈ wave) {error : Option String}
    (outcome : env.succeeds st = error.isNone) :
    Consistent env stages later (dag.settled st error) ∧
      pendings stages (dag.settled st error) + 1 = pendings stages dag := by
  have pending := (consistent.sound.events_of_flying member flying).1
  refine ⟨⟨consistent.sound.settle graph.distinct member flying landed others outcome, ?_⟩, ?_⟩
  · cases error with
    | none =>
        apply consistent.explained.move pending rfl
        · intro stopped
          exact stopped
        · intro impossible
          cases impossible
    | some message =>
        apply consistent.explained.move pending rfl
        · intro stopped
          change (dag.stopEarly || _) = true
          rw [stopped, Bool.true_or]
        · intro impossible
          cases impossible
  · have moved := fun value =>
      tally_update graph.distinct member isPending dag.status (some value)
    rw [pending] at moved
    cases error with
    | none => exact moved .succeeded
    | some message => exact moved .failed

theorem mem_stageNodes {n : StageNode} (member : n ∈ stageNodes stages) :
    ∃ st ∈ stages, n = { id := st.stageKey, dependsOn := st.dependsOn } := by
  obtain ⟨st, stMember, same⟩ := List.mem_map.mp member
  exact ⟨st, stMember, same.symm⟩

include persists graph in
theorem skipPass_ensures (consistent : Consistent env stages [] dag) :
    Ensures (skipPass env stages dag) (fun next => Consistent env stages [] next.1 ∧
      pendings stages next.1 ≤ pendings stages dag ∧
        (next.2 = true → pendings stages next.1 < pendings stages dag)) := by
  unfold skipPass
  apply Ensures.foldlM_of_mem
  · rintro n member ⟨current, progress⟩ ⟨holds, fewer, strictly⟩
    obtain ⟨st, stMember, rfl⟩ := mem_stageNodes member
    -- both branches that skip a stage have a reason to
    have skips : ∀ reason, current.status st.stageKey = some .pending →
        (current.stopEarly = true ∨
          ∃ d ∈ st.dependsOn, isUnsuccessful (current.status d) = true) →
        Ensures (do
          let dag ← skipAndMark env stages st.stageKey reason current
          pure (dag, true)) (fun next : Dag × Bool => Consistent env stages [] next.1 ∧
            pendings stages next.1 ≤ pendings stages dag ∧
              (next.2 = true → pendings stages next.1 < pendings stages dag)) := by
      intro reason pending why
      have idle : Idle stages [] current st := ⟨stMember, pending, List.not_mem_nil⟩
      have counted := pendings_skipped graph idle reason
      rw [skipAndMark_eq persists graph stMember reason]
      apply Ensures.ok
      refine ⟨holds.skip graph idle reason why, ?_, ?_⟩
      · change pendings stages (current.skipped st reason) ≤ _
        change pendings stages current ≤ _ at fewer
        omega
      · intro _progress
        change pendings stages (current.skipped st reason) < _
        change pendings stages current ≤ _ at fewer
        omega
    by_cases pending : current.status st.stageKey = some .pending
    · simp only [pending, ne_eq, not_true_eq_false, if_false]
      by_cases stopped : current.stopEarly = true
      · simp only [stopped, if_true]
        exact skips _ pending (.inl stopped)
      · simp only [stopped, Bool.false_eq_true, if_false]
        by_cases blocked : depsBlocking
            { id := st.stageKey, dependsOn := st.dependsOn } current.status = true
        · simp only [blocked, if_true]
          exact skips _ pending (.inr (List.any_eq_true.mp blocked))
        · simp only [blocked, Bool.false_eq_true, if_false]
          exact Ensures.ok ⟨holds, fewer, strictly⟩
    · simp only [pending, ne_eq, not_false_eq_true, if_true]
      exact Ensures.ok ⟨holds, fewer, strictly⟩
  · refine ⟨consistent, Nat.le_refl _, ?_⟩
    intro impossible
    cases impossible

structure SkippingRest (env : StageEnv) (stages : List ResolvedStage) (dag : Dag)
    (remaining : List StageNode) (current : Dag) : Prop where
  sound : Sound env stages [] current
  stop : current.stopEarly = dag.stopEarly
  inside : ∀ n ∈ remaining, n ∈ stageNodes stages
  statuses : ∀ st ∈ stages, current.status st.stageKey = dag.status st.stageKey ∨
    (dag.status st.stageKey = some .pending ∧ current.status st.stageKey = some .skipped)
  pending : ∀ st ∈ stages, current.status st.stageKey = some .pending →
    ∃ n ∈ remaining, n.id = st.stageKey

include persists graph in
theorem skipRest_turn {n : StageNode} {later : List StageNode} {current : Dag}
    (skipping : SkippingRest env stages dag (n :: later) current) :
    Ensures (if current.status n.id = some .pending then
        skipAndMark env stages n.id "skipped: dependencies never satisfied" current
      else pure current) (SkippingRest env stages dag later) := by
  obtain ⟨st, member, rfl⟩ := mem_stageNodes (skipping.inside n List.mem_cons_self)
  have inside := fun other otherMember =>
    skipping.inside other (List.mem_cons_of_mem _ otherMember)
  by_cases pending : current.status st.stageKey = some .pending
  · have idle : Idle stages [] current st := ⟨member, pending, List.not_mem_nil⟩
    rw [if_pos pending, skipAndMark_eq persists graph member]
    apply Ensures.ok
    refine ⟨skipping.sound.skip graph.distinct idle _, skipping.stop, inside, ?_, ?_⟩
    · intro other otherMember
      change Function.update current.status st.stageKey _ other.stageKey = _ ∨
        _ ∧ Function.update current.status st.stageKey _ other.stageKey = _
      by_cases same : other.stageKey = st.stageKey
      · rw [same, Function.update_self]
        rcases skipping.statuses st member with before | ⟨before, _⟩
        · exact .inr ⟨before.symm.trans pending, rfl⟩
        · exact .inr ⟨before, rfl⟩
      · rw [Function.update_of_ne same]
        exact skipping.statuses other otherMember
    · intro other otherMember waiting
      change Function.update current.status st.stageKey _ other.stageKey = _ at waiting
      by_cases same : other.stageKey = st.stageKey
      · rw [same, Function.update_self] at waiting
        cases waiting
      · rw [Function.update_of_ne same] at waiting
        obtain ⟨m, remains, key⟩ := skipping.pending other otherMember waiting
        rcases List.mem_cons.mp remains with first | remains
        · rw [first] at key
          exact absurd key.symm same
        · exact ⟨m, remains, key⟩
  · rw [if_neg pending]
    apply Ensures.ok
    refine ⟨skipping.sound, skipping.stop, inside, skipping.statuses, ?_⟩
    intro other otherMember waiting
    obtain ⟨m, remains, key⟩ := skipping.pending other otherMember waiting
    rcases List.mem_cons.mp remains with first | remains
    · rw [first] at key
      rw [← key] at waiting
      exact absurd waiting pending
    · exact ⟨m, remains, key⟩

include persists graph in
private theorem skipRest_ensures (sound : Sound env stages [] dag) :
    Ensures (skipRest env stages dag) (SkippingRest env stages dag []) := by
  unfold skipRest
  apply Ensures.foldlM
  · intro n later current skipping
    exact skipRest_turn persists graph skipping
  · refine ⟨sound, rfl, fun n member => member, fun st _member => .inl rfl, ?_⟩
    intro st member _pending
    exact ⟨_, List.mem_map_of_mem member, rfl⟩

theorem SkippingRest.status_eq {after : Dag} (skipped : SkippingRest env stages dag [] after)
    (member : st ∈ stages) : after.status st.stageKey =
      if dag.status st.stageKey = some .pending then some .skipped
      else dag.status st.stageKey := by
  have settled : after.status st.stageKey ≠ some .pending := by
    intro waiting
    obtain ⟨_, impossible, _⟩ := skipped.pending st member waiting
    cases impossible
  rcases skipped.statuses st member with same | ⟨pending, now⟩
  · rw [same] at settled
    rw [if_neg settled, same]
  · rw [if_pos pending, now]

private theorem SkippingRest.pendings_eq {after : Dag}
    (skipped : SkippingRest env stages dag [] after) :
    pendings stages after = 0 := by
  apply List.countP_eq_zero.mpr
  intro st member waiting
  obtain ⟨_, impossible, _⟩ := skipped.pending st member (of_decide_eq_true waiting)
  cases impossible

theorem Sound.status_ne_none (sound : Sound env stages wave dag) (member : st ∈ stages) :
    dag.status st.stageKey ≠ none := by
  intro absent
  have history := sound.recorded st member
  rw [absent] at history
  cases history

theorem Consistent.of_skipRest (graph : StageGraph stages)
    (consistent : Consistent env stages [] dag) {after : Dag}
    (stuck : readyStageIDs (stageNodes stages) dag.status = [])
    (rest : SkippingRest env stages dag [] after) : Consistent env stages [] after := by
  refine ⟨rest.sound, ?_⟩
  -- a status that is no success comes out as a failure or a skip
  have closed : ∀ d : String, (∃ other ∈ stages, other.stageKey = d) →
      dag.status d ≠ some .succeeded → isUnsuccessful (after.status d) = true := by
    rintro d ⟨other, otherMember, rfl⟩ unsuccessful
    rw [rest.status_eq otherMember]
    cases before : dag.status other.stageKey with
    | none => exact absurd before (consistent.sound.status_ne_none otherMember)
    | some status =>
        cases status with
        | pending => rfl
        | succeeded => exact absurd before unsuccessful
        | failed => rfl
        | skipped => rfl
  intro st member skipped
  rw [rest.stop]
  by_cases pending : dag.status st.stageKey = some .pending
  · right
    by_contra none
    have ready : st.stageKey ∈ readyStageIDs (stageNodes stages) dag.status := by
      unfold readyStageIDs
      refine List.mem_map.mpr ⟨⟨st.stageKey, st.dependsOn⟩, List.mem_filter.mpr ⟨?_, ?_⟩, rfl⟩
      · exact List.mem_map_of_mem member
      · rw [Bool.and_eq_true, List.all_eq_true]
        refine ⟨decide_eq_true pending, ?_⟩
        intro d names
        apply decide_eq_true
        by_contra unsuccessful
        exact none ⟨d, names, closed d (graph.known st member d names) unsuccessful⟩
    rw [stuck] at ready
    cases ready
  · have before := rest.status_eq member
    rw [if_neg pending, skipped] at before
    rcases consistent.explained st member before.symm with stopped | ⟨d, names, unsuccessful⟩
    · exact .inl stopped
    · refine .inr ⟨d, names, closed d (graph.known st member d names) ?_⟩
      intro succeeded
      rw [succeeded] at unsuccessful
      cases unsuccessful

/-! ### Waves -/

def Startable (stages wave : List ResolvedStage) (dag : Dag) (id : String) : Prop :=
  ∃ st, st.stageKey = id ∧ Idle stages wave dag st ∧
    ∀ d ∈ st.dependsOn, dag.status d = some .succeeded

theorem Startable.frame {later : List ResolvedStage} {after : Dag} {id key : String}
    {value : Option StageRunStatus} (startable : Startable stages wave dag id)
    (pending : dag.status key = some .pending)
    (status : after.status = Function.update dag.status key value)
    (others : ∀ other : ResolvedStage, other.stageKey ≠ key → other ∈ later → other ∈ wave)
    (different : id ≠ key) : Startable stages later after id := by
  obtain ⟨st, rfl, idle, ready⟩ := startable
  refine ⟨st, rfl, ⟨idle.member, ?_, ?_⟩, ?_⟩
  · rw [status, Function.update_of_ne different]
    exact idle.pending
  · intro flying
    exact idle.idle (others st different flying)
  · intro d names
    have apart : d ≠ key := by
      intro equal
      have succeeded := ready d names
      rw [equal, pending] at succeeded
      cases succeeded
    rw [status, Function.update_of_ne apart]
    exact ready d names

private theorem mem_readyStageIDs {id : String}
    (member : id ∈ readyStageIDs (stageNodes stages) dag.status) : Startable stages [] dag id := by
  obtain ⟨n, kept, rfl⟩ := List.mem_map.mp member
  obtain ⟨inside, ready⟩ := List.mem_filter.mp kept
  obtain ⟨st, stMember, rfl⟩ := mem_stageNodes inside
  rw [Bool.and_eq_true, List.all_eq_true] at ready
  refine ⟨st, rfl, ⟨stMember, of_decide_eq_true ready.1, List.not_mem_nil⟩, ?_⟩
  intro d names
  exact of_decide_eq_true (ready.2 d names)

include graph in
private theorem readyStageIDs_nodup (status : StageStatuses) :
    (readyStageIDs (stageNodes stages) status).Nodup := by
  unfold readyStageIDs
  have keys : (stageNodes stages).map StageNode.id = stages.map ResolvedStage.stageKey := by
    unfold stageNodes
    rw [List.map_map]
    rfl
  have distinct := graph.distinct
  rw [← keys] at distinct
  exact distinct.sublist (List.filter_sublist.map StageNode.id)

def WaveItem.Awaited (env : StageEnv) (stages : List ResolvedStage) (item : WaveItem) : Prop :=
  item.st ∈ stages ∧ env.succeeds item.st = (stageError (env.child item.st)).isNone

/-- A wave of `total` stages on its way, with `remaining` of them to come. -/
structure Launching (env : StageEnv) (stages : List ResolvedStage) (before total : Nat)
    (remaining : List String) (current : Dag × List WaveItem) : Prop where
  consistent : Consistent env stages (current.2.map WaveItem.st) current.1
  distinct : remaining.Nodup
  startable : ∀ id ∈ remaining, Startable stages (current.2.map WaveItem.st) current.1 id
  itemsDistinct : (current.2.map WaveItem.st).Nodup
  awaited : ∀ item ∈ current.2, item.Awaited env stages
  counted : pendings stages current.1 + total = before + current.2.length + remaining.length

include graph in
theorem Consistent.start (consistent : Consistent env stages wave dag)
    (idle : Idle stages wave dag st) (ready : ∀ d ∈ st.dependsOn, dag.status d = some .succeeded)
    (going : dag.stopEarly = false) :
    Consistent env stages (wave ++ [st]) (dag.record (.start st)) := by
  constructor
  · apply consistent.sound.start graph.distinct idle _ going
    intro d names
    obtain ⟨other, otherMember, key⟩ := graph.known st idle.member d names
    exact ⟨other, otherMember, key, ready d names⟩
  · exact consistent.explained

section Turn

variable {before total : Nat} {later : List String} {items : List WaveItem}

theorem Launching.settled {after : Dag} {value : Option StageRunStatus}
    (launching : Launching env stages before total (st.stageKey :: later) (dag, items))
    (idle : Idle stages (items.map WaveItem.st) dag st)
    (consistent : Consistent env stages (items.map WaveItem.st) after)
    (status : after.status = Function.update dag.status st.stageKey value)
    (fewer : pendings stages after + 1 = pendings stages dag) :
    Launching env stages before total later (after, items) := by
  obtain ⟨fresh, distinct⟩ := List.nodup_cons.mp launching.distinct
  refine ⟨consistent, distinct, ?_, launching.itemsDistinct, launching.awaited, ?_⟩
  · intro id remains
    apply (launching.startable id (List.mem_cons_of_mem _ remains)).frame idle.pending status
    · intro other _different flying
      exact flying
    · intro equal
      rw [equal] at remains
      exact fresh remains
  · have counted := launching.counted
    rw [List.length_cons] at counted
    change pendings stages dag + total = before + items.length + _ at counted
    change pendings stages after + total = before + items.length + later.length
    omega

theorem Launching.flying {jobID : Int}
    (launching : Launching env stages before total (st.stageKey :: later) (dag, items))
    (idle : Idle stages (items.map WaveItem.st) dag st)
    (consistent : Consistent env stages (items.map WaveItem.st ++ [st]) (dag.record (.start st)))
    (outcome : env.succeeds st = (stageError (env.child st)).isNone) :
    Launching env stages before total later
      (dag.record (.start st), items ++ [{ st := st, jobID := jobID }]) := by
  obtain ⟨fresh, distinct⟩ := List.nodup_cons.mp launching.distinct
  have wave : (items ++ [({ st := st, jobID := jobID } : WaveItem)]).map WaveItem.st =
      items.map WaveItem.st ++ [st] := by
    rw [List.map_append]
    rfl
  constructor
  · rw [wave]
    exact consistent
  · exact distinct
  · intro id remains
    rw [wave]
    have unchanged : (dag.record (.start st)).status =
        Function.update dag.status st.stageKey (dag.status st.stageKey) :=
      (Function.update_eq_self st.stageKey dag.status).symm
    apply (launching.startable id (List.mem_cons_of_mem _ remains)).frame idle.pending unchanged
    · intro other different flying
      rcases List.mem_append.mp flying with before | last
      · exact before
      · rw [List.mem_singleton.mp last] at different
        exact absurd rfl different
    · intro equal
      rw [equal] at remains
      exact fresh remains
  · rw [wave, List.nodup_append]
    refine ⟨launching.itemsDistinct, List.nodup_singleton st, ?_⟩
    intro other otherFlying last lastMember equal
    rw [List.mem_singleton.mp lastMember] at equal
    rw [equal] at otherFlying
    exact idle.idle otherFlying
  · intro item inside
    rcases List.mem_append.mp inside with earlier | last
    · exact launching.awaited item earlier
    · rw [List.mem_singleton.mp last]
      exact ⟨idle.member, outcome⟩
  · have counted := launching.counted
    rw [List.length_cons] at counted
    change pendings stages dag + total = before + items.length + _ at counted
    change pendings stages dag + total =
      before + (items ++ [({ st := st, jobID := jobID } : WaveItem)]).length + later.length
    rw [List.length_append, List.length_singleton]
    omega

include persists graph in
theorem startStage_turn {id : String}
    (launching : Launching env stages before total (id :: later) (dag, items)) :
    Ensures (startStage env stages (dag, items) id) (Launching env stages before total later) := by
  obtain ⟨st, rfl, idle, ready⟩ := launching.startable id List.mem_cons_self
  unfold startStage
  by_cases stopped : dag.stopEarly = true
  · simp only [stopped, if_true]
    rw [skipAndMark_eq persists graph idle.member]
    apply Ensures.ok
    exact launching.settled idle
      (launching.consistent.skip graph idle _ (.inl stopped)) rfl (pendings_skipped graph idle _)
  · have going : dag.stopEarly = false := Bool.eq_false_iff.mpr stopped
    have started := launching.consistent.start graph idle ready going
    simp only [going, Bool.false_eq_true, if_false]
    rw [byKey_eq graph.distinct idle.member]
    -- a start that fails settles its stage within the turn
    have fails : ∀ (jobID : Int) (message : String), env.succeeds st = false →
        Ensures (do
          let dag ← settleStage env st jobID (some message) (dag.record (.start st))
          pure (dag, items)) (Launching env stages before total later) := by
      intro jobID message outcome
      have settled : Consistent env stages (items.map WaveItem.st)
          ((dag.record (.start st)).settled st (some message)) ∧
          pendings stages ((dag.record (.start st)).settled st (some message)) + 1 =
            pendings stages (dag.record (.start st)) := by
        apply started.settle graph idle.member
          (List.mem_append_right _ List.mem_cons_self) idle.idle
        · intro other different
          rw [List.mem_append, List.mem_singleton, or_iff_left different]
        · exact outcome
      rw [settleStage_eq persists]
      exact Ensures.ok (launching.settled idle settled.1 rfl settled.2)
    cases job : env.startBatchStageJob st with
    | error message =>
        apply fails
        simp only [StageEnv.succeeds, job]
    | ok jobID =>
        cases child : env.startChild st with
        | error e =>
            by_cases already : e.isAlreadyStarted = true
            · simp only [already, if_true]
              apply Ensures.ok
              apply launching.flying idle started
              simp only [StageEnv.succeeds, job, child, already, Bool.true_and]
            · simp only [already, Bool.false_eq_true, if_false]
              apply fails
              simp only [StageEnv.succeeds, job, child, already, Bool.false_and]
        | ok runID =>
            simp only [persists.marks]
            apply Ensures.ok
            apply launching.flying idle started
            simp only [StageEnv.succeeds, job, child]

end Turn

/-- A wave on its way back, with `remaining` of its items to wait for. -/
structure Landing (env : StageEnv) (stages : List ResolvedStage) (before total : Nat)
    (remaining : List WaveItem) (dag : Dag) : Prop where
  consistent : Consistent env stages (remaining.map WaveItem.st) dag
  distinct : (remaining.map WaveItem.st).Nodup
  awaited : ∀ item ∈ remaining, item.Awaited env stages
  counted : pendings stages dag + total = before + remaining.length

include persists graph in
private theorem waitStage_turn {before total : Nat} {item : WaveItem} {later : List WaveItem}
    (landing : Landing env stages before total (item :: later) dag) :
    Ensures (waitStage env dag item) (Landing env stages before total later) := by
  obtain ⟨landed, distinct⟩ := List.nodup_cons.mp landing.distinct
  obtain ⟨member, outcome⟩ := landing.awaited item List.mem_cons_self
  obtain ⟨consistent, fewer⟩ := landing.consistent.settle graph member List.mem_cons_self landed
    (by
      intro other different
      rw [List.map_cons, List.mem_cons, or_iff_right different]) outcome
  unfold waitStage
  rw [settleStage_eq persists]
  apply Ensures.ok
  refine ⟨consistent, distinct, ?_, ?_⟩
  · intro other remains
    exact landing.awaited other (List.mem_cons_of_mem _ remains)
  · have counted := landing.counted
    rw [List.length_cons] at counted
    omega

private theorem pendings_eq_zero_of_pendingLeft (none : pendingLeft stages dag = false) :
    pendings stages dag = 0 := by
  apply List.countP_eq_zero.mpr
  intro st member
  exact List.any_eq_false.mp none st member

include persists graph in
theorem dagRound_ensures (consistent : Consistent env stages [] dag) :
    Ensures (dagRound env stages dag) (fun next =>
      if next.2 then Consistent env stages [] next.1 ∧ pendings stages next.1 = 0
      else Consistent env stages [] next.1 ∧ pendings stages next.1 < pendings stages dag) := by
  unfold dagRound
  apply Ensures.bind (skipPass_ensures persists graph consistent)
  rintro ⟨current, progress⟩ ⟨holds, fewer, strictly⟩
  change pendings stages current ≤ _ at fewer
  change progress = true → pendings stages current < _ at strictly
  by_cases stuck : readyStageIDs (stageNodes stages) current.status = []
  · simp only [stuck, if_true]
    apply Ensures.bind (skipRest_ensures persists graph holds.sound)
    intro after rest
    apply Ensures.ok
    have closed := holds.of_skipRest graph stuck rest
    have settled := rest.pendings_eq
    cases progress with
    | false => exact ⟨closed, settled⟩
    | true =>
        have lower := strictly rfl
        refine ⟨closed, ?_⟩
        change pendings stages after < _
        omega
  · simp only [stuck, if_false]
    have nonempty : 0 < (readyStageIDs (stageNodes stages) current.status).length :=
      List.length_pos_iff.mpr stuck
    have ready : Launching env stages (pendings stages current)
        (readyStageIDs (stageNodes stages) current.status).length
        (readyStageIDs (stageNodes stages) current.status) (current, []) :=
      ⟨holds, readyStageIDs_nodup graph current.status, fun id member => mem_readyStageIDs member,
        List.nodup_nil, fun _ impossible => absurd impossible List.not_mem_nil, rfl⟩
    have launched : Ensures ((readyStageIDs (stageNodes stages) current.status).foldlM
        (startStage env stages) (current, [])) (Launching env stages (pendings stages current)
          (readyStageIDs (stageNodes stages) current.status).length []) := by
      apply Ensures.foldlM
      · rintro id later ⟨value, items⟩ launching
        exact startStage_turn persists graph launching
      · exact ready
    apply Ensures.bind launched
    rintro ⟨flown, wave⟩ launching
    have landed : Ensures (wave.foldlM (waitStage env) flown)
        (Landing env stages (pendings stages current)
          (readyStageIDs (stageNodes stages) current.status).length []) := by
      apply Ensures.foldlM
      · intro item later value landing
        exact waitStage_turn persists graph landing
      · exact ⟨launching.consistent, launching.itemsDistinct, launching.awaited,
          launching.counted⟩
    apply Ensures.bind landed
    intro after landing
    apply Ensures.ok
    have counted := landing.counted
    change _ = _ + 0 at counted
    cases left : pendingLeft stages after with
    | false => exact ⟨landing.consistent, pendings_eq_zero_of_pendingLeft left⟩
    | true =>
        refine ⟨landing.consistent, ?_⟩
        change pendings stages after < _
        omega

include persists graph in
theorem runStagesDAG_ends {turns : Nat} (enough : stages.length < turns) :
    ∃ dag, runStagesDAG env turns stages = some (.ok dag) ∧ Consistent env stages [] dag ∧
      pendings stages dag = 0 := by
  apply iterate_ends (pendings stages) (fun dag => dagRound_ensures persists graph)
  · exact ⟨initialDag_sound env stages, initialDag_explained stages⟩
  · have bound : pendings stages (initialDag stages) ≤ stages.length := List.countP_le_length
    omega

end Loops

/-! ### The log of a finished run -/

section Finished

variable {env : StageEnv} {stages : List ResolvedStage} {dag : Dag} {st : ResolvedStage}

theorem mem_eventsOf {event : StageEvent} {log : List StageEvent} :
    event ∈ eventsOf event.stage log ↔ event ∈ log := by
  unfold eventsOf
  rw [List.mem_filter]
  exact and_iff_left (decide_eq_true rfl)

theorem Sound.start_mem_iff (sound : Sound env stages [] dag) (member : st ∈ stages) :
    .start st ∈ dag.log ↔
      dag.status st.stageKey = some .succeeded ∨ dag.status st.stageKey = some .failed := by
  have history := sound.recorded st member
  have inside := @mem_eventsOf (.start st) dag.log
  change .start st ∈ eventsOf st dag.log ↔ _ at inside
  rw [← inside]
  generalize eventsOf st dag.log = events at history
  generalize dag.status st.stageKey = status at history
  cases history with
  | waiting _ => simp
  | started impossible => cases impossible
  | succeeded _ => simp
  | failed _ error => simp
  | skipped _ reason => simp

theorem Sound.observe_mem_iff (sound : Sound env stages [] dag) (member : st ∈ stages)
    (succeeded : Bool) : .observe st succeeded ∈ dag.log ↔
      dag.status st.stageKey = some (if succeeded then .succeeded else .failed) := by
  have history := sound.recorded st member
  have inside := @mem_eventsOf (.observe st succeeded) dag.log
  change .observe st succeeded ∈ eventsOf st dag.log ↔ _ at inside
  rw [← inside]
  generalize eventsOf st dag.log = events at history
  generalize dag.status st.stageKey = status at history
  cases history with
  | waiting _ => cases succeeded <;> simp
  | started impossible => cases impossible
  | succeeded _ => cases succeeded <;> simp
  | failed _ error => cases succeeded <;> simp
  | skipped _ reason => cases succeeded <;> simp

theorem status_ne_pending (settled : pendings stages dag = 0) (member : st ∈ stages) :
    dag.status st.stageKey ≠ some .pending := by
  intro waiting
  exact List.countP_eq_zero.mp settled st member (decide_eq_true waiting)

def StageEvent.finalizes (st : ResolvedStage) : StageEvent → Bool
  | .finalize other _ _ => decide (other = st)
  | _ => false

private theorem filter_finalizes (st : ResolvedStage) (log : List StageEvent) :
    log.filter (StageEvent.finalizes st) = (eventsOf st log).filter (StageEvent.finalizes st) := by
  unfold eventsOf
  rw [List.filter_filter]
  apply List.filter_congr
  intro event _member
  cases event with
  | start other => rfl
  | observe other succeeded => rfl
  | finalize other status error =>
      change decide (other = st) = (decide (other = st) && decide (other = st))
      rw [Bool.and_self]

theorem StartsAllowed.at_start {earlier later : List StageEvent}
    (allowed : StartsAllowed stages (later ++ .start st :: earlier)) :
    (∀ d ∈ st.dependsOn, ∃ other ∈ stages, other.stageKey = d ∧ .observe other true ∈ earlier) ∧
      ∀ other, .observe other false ∈ earlier → other.onFailure = "continue" := by
  induction later with
  | nil => exact ⟨allowed.1, allowed.2.1⟩
  | cons event rest ih =>
      cases event with
      | start other => exact ih allowed.2.2
      | observe other succeeded => exact ih allowed
      | finalize other status error => exact ih allowed

private theorem tallies_add (sound : Sound env stages [] dag) (settled : pendings stages dag = 0) :
    tally stages isSucceeded dag.status + tally stages isUnsuccessful dag.status =
      stages.length := by
  have complement : tally stages isUnsuccessful dag.status =
      stages.countP (fun st => decide ¬isSucceeded (dag.status st.stageKey) = true) := by
    apply List.countP_congr
    intro st member
    have formed := sound.status_ne_none member
    have ended := status_ne_pending settled member
    cases status : dag.status st.stageKey with
    | none => exact absurd status formed
    | some value =>
        cases value with
        | pending => exact absurd status ended
        | succeeded => simp [isSucceeded, isUnsuccessful]
        | failed => simp [isSucceeded, isUnsuccessful]
        | skipped => simp [isSucceeded, isUnsuccessful]
  rw [complement]
  exact (List.length_eq_countP_add_countP _).symm

structure Scheduled (stages : List ResolvedStage) (dag : Dag) : Prop where
  startedOnce : ∀ st, dag.log.count (.start st) ≤ 1
  startedReady : ∀ later st earlier, dag.log = later ++ .start st :: earlier →
    st ∈ stages ∧
    (∀ d ∈ st.dependsOn, ∃ other ∈ stages, other.stageKey = d ∧ .observe other true ∈ earlier) ∧
    ∀ other, .observe other false ∈ earlier → other.onFailure = "continue"
  finalizedOnce : ∀ st ∈ stages, ∃ status error,
    dag.log.filter (StageEvent.finalizes st) = [.finalize st status error] ∧
    (status = "succeeded" ∧ .observe st true ∈ dag.log ∨
      status = "failed" ∧ .observe st true ∉ dag.log)
  counted : dag.stagesOK + dag.stagesFailed = stages.length

theorem Sound.scheduled (sound : Sound env stages [] dag) (settled : pendings stages dag = 0) :
    Scheduled stages dag := by
  constructor
  · intro st
    by_cases member : st ∈ stages
    · have history := sound.recorded st member
      have counted : (eventsOf st dag.log).count (.start st) = dag.log.count (.start st) :=
        List.count_filter (decide_eq_true rfl)
      rw [← counted]
      generalize eventsOf st dag.log = events at history
      generalize dag.status st.stageKey = status at history
      cases history with
      | waiting _ => simp
      | started _ => simp
      | succeeded _ => simp
      | failed _ error => simp
      | skipped _ reason => simp
    · have absent : dag.log.count (.start st) = 0 := by
        apply List.count_eq_zero.mpr
        intro inside
        exact member (sound.within _ inside)
      omega
  · intro later st earlier split
    have allowed := sound.starts
    rw [split] at allowed
    refine ⟨sound.within (.start st) ?_, allowed.at_start⟩
    rw [split]
    exact List.mem_append_right _ List.mem_cons_self
  · intro st member
    have observed := sound.observe_mem_iff member true
    have history := sound.recorded st member
    have ended := status_ne_pending settled member
    rw [filter_finalizes, observed]
    generalize eventsOf st dag.log = events at history
    generalize dag.status st.stageKey = status at history ended
    cases history with
    | waiting _ => exact absurd rfl ended
    | started impossible => cases impossible
    | succeeded _ => exact ⟨"succeeded", "", by simp [StageEvent.finalizes], by simp⟩
    | failed _ error => exact ⟨"failed", error, by simp [StageEvent.finalizes], by simp⟩
    | skipped _ reason => exact ⟨"failed", reason, by simp [StageEvent.finalizes], by simp⟩
  · rw [sound.stagesOK, sound.stagesFailed]
    exact tallies_add sound settled

end Finished

/-- Every run of the scheduler on a validated manifest ends, whatever starts and
children come to, as long as its persistence activities succeed. -/
theorem dag_schedule_is_sound {m validated : Manifest} (valid : m.validate = .ok validated)
    (rowIDs : Nat → Int) {env : StageEnv} (persists : env.Persists) {turns : Nat}
    (enough : validated.stages.length < turns) :
    ∃ dag, runStagesDAG env turns (validated.resolvedStages rowIDs) = some (.ok dag) ∧
      Scheduled (validated.resolvedStages rowIDs) dag := by
  have graph := Manifest.validate_graph valid rowIDs
  rw [← resolvedStages_length validated rowIDs] at enough
  obtain ⟨dag, ran, consistent, settled⟩ := runStagesDAG_ends persists graph enough
  exact ⟨dag, ran, consistent.sound.scheduled settled⟩

def contactsFirst : Manifest :=
  { version := 1
    onStageFailure := "continue"
    stages := [
      { id := "contacts", file := "contacts.csv", templateKey := "contacts",
        dependsOn := ["accounts"] },
      { id := "accounts", file := "accounts.csv", templateKey := "accounts" }] }

def accountsFail : StageEnv :=
  { startBatchStageJob := fun _ => .ok 1
    startChild := fun _ => .ok "run"
    child := fun st =>
      if st.stageKey = "accounts" then .error "job failed"
      else .ok { failed := 0, unresolved := 0, cancelled := false }
    markJobRunning := fun _ _ => none
    finalizeBatchStage := fun _ => none }

theorem accountsFail_persists : accountsFail.Persists :=
  ⟨fun _ => rfl, fun _ _ => rfl⟩

theorem contactsFirst_valid : contactsFirst.validate = .ok contactsFirst := by
  decide +kernel

theorem contactsFirst_schedule_is_sound : contactsFirst.validate = .ok contactsFirst ∧
    ∃ dag, runStagesDAG accountsFail 3 (contactsFirst.resolvedStages (fun i => i)) =
        some (.ok dag) ∧
      Scheduled (contactsFirst.resolvedStages (fun i => i)) dag :=
  ⟨contactsFirst_valid,
    dag_schedule_is_sound contactsFirst_valid (fun i => i) accountsFail_persists (by decide)⟩

def Executed (dag : Dag) (st : ResolvedStage) : Prop := .start st ∈ dag.log

def ExecutedAndSucceeded (dag : Dag) (st : ResolvedStage) : Prop :=
  Executed dag st ∧ .observe st true ∈ dag.log

section Continuing

variable {env : StageEnv} {stages : List ResolvedStage} {dag : Dag} {st other : ResolvedStage}

theorem Consistent.executed_of_direct (graph : StageGraph stages)
    (consistent : Consistent env stages [] dag) (executed : Executed dag st)
    (needs : Needs stages other st) : ExecutedAndSucceeded dag other := by
  obtain ⟨later, earlier, split⟩ := List.append_of_mem executed
  have allowed := consistent.sound.starts
  rw [split] at allowed
  obtain ⟨found, foundMember, key, observed⟩ := allowed.at_start.1 other.stageKey needs.2
  have same := eq_of_stageKey_eq graph.distinct foundMember needs.1 key
  rw [same] at observed
  have inLog : .observe other true ∈ dag.log := by
    rw [split]
    exact List.mem_append_right _ (List.mem_cons_of_mem _ observed)
  refine ⟨(consistent.sound.start_mem_iff needs.1).mpr (.inl ?_), inLog⟩
  exact (consistent.sound.observe_mem_iff needs.1 true).mp inLog

theorem Consistent.executed_of_transitive (graph : StageGraph stages)
    (consistent : Consistent env stages [] dag)
    (needs : Relation.TransGen (Needs stages) other st) (executed : Executed dag st) :
    ExecutedAndSucceeded dag other := by
  induction needs with
  | single direct => exact consistent.executed_of_direct graph executed direct
  | tail _earlier direct ih =>
      exact ih (consistent.executed_of_direct graph executed direct).1

theorem Consistent.executed_of_succeeded (graph : StageGraph stages)
    (consistent : Consistent env stages [] dag) (settled : pendings stages dag = 0)
    (continues : ∀ st ∈ stages, st.onFailure = "continue") (member : st ∈ stages)
    (succeeded : ∀ other, Needs stages other st → ExecutedAndSucceeded dag other) :
    Executed dag st := by
  have sound := consistent.sound
  apply (sound.start_mem_iff member).mpr
  cases status : dag.status st.stageKey with
  | none => exact absurd status (sound.status_ne_none member)
  | some value =>
      cases value with
      | pending => exact absurd status (status_ne_pending settled member)
      | succeeded => exact .inl rfl
      | failed => exact .inr rfl
      | skipped =>
          exfalso
          rcases consistent.explained st member status with stopped | ⟨d, names, unsuccessful⟩
          · obtain ⟨failing, observed, stops⟩ := sound.stopped.mp stopped
            exact stops (continues failing (sound.within _ observed))
          · obtain ⟨other, otherMember, rfl⟩ := graph.known st member d names
            have observed := (succeeded other ⟨otherMember, names⟩).2
            have ended := (sound.observe_mem_iff otherMember true).mp observed
            rw [ended] at unsuccessful
            cases unsuccessful

private theorem Consistent.executed_iff (graph : StageGraph stages)
    (consistent : Consistent env stages [] dag) (settled : pendings stages dag = 0)
    (continues : ∀ st ∈ stages, st.onFailure = "continue") (member : st ∈ stages) :
    Executed dag st ↔
      ∀ other, Relation.TransGen (Needs stages) other st → ExecutedAndSucceeded dag other := by
  constructor
  · intro executed other needs
    exact consistent.executed_of_transitive graph needs executed
  · intro succeeded
    apply consistent.executed_of_succeeded graph settled continues member
    intro other direct
    exact succeeded other (.single direct)

/-- Along the dependency order, which the order of the stages may contradict,
the outcomes of its dependencies decide whether a stage is executed. -/
theorem Consistent.executed_of_outcomes (graph : StageGraph stages)
    (consistent : Consistent env stages [] dag) (settled : pendings stages dag = 0)
    (continues : ∀ st ∈ stages, st.onFailure = "continue")
    (accessible : Acc (Needs stages) st) (member : st ∈ stages)
    (outcomes : ∀ other, Relation.TransGen (Needs stages) other st → env.succeeds other = true) :
    Executed dag st := by
  induction accessible with
  | intro st _below ih =>
      apply consistent.executed_of_succeeded graph settled continues member
      intro other direct
      have executed : Executed dag other := by
        apply ih other direct direct.1
        intro further needs
        exact outcomes further (.tail needs direct)
      refine ⟨executed, ?_⟩
      rcases (consistent.sound.start_mem_iff direct.1).mp executed with succeeded | failed
      · exact (consistent.sound.observe_mem_iff direct.1 true).mpr succeeded
      · have observed := (consistent.sound.observe_mem_iff direct.1 false).mpr failed
        have outcome := consistent.sound.outcomes other false observed
        rw [outcomes other (.single direct)] at outcome
        cases outcome

end Continuing

private theorem resolvedStages_continue {m : Manifest} {rowIDs : Nat → Int}
    (continues : ∀ st ∈ m.stages, m.effectiveOnFailure st = "continue") :
    ∀ st ∈ m.resolvedStages rowIDs, st.onFailure = "continue" := by
  intro st member
  obtain ⟨source, sourceMember, _, _, policy⟩ := mem_resolvedStages member
  rw [policy, continues source sourceMember]
  rfl

/-- With `continue` everywhere a stage is executed exactly where all its
transitive dependencies are executed and succeed, which is where all their
outcomes are successes: a condition on the graph that no order of the stages
enters. -/
theorem dag_continue_follows_graph {m validated : Manifest} (valid : m.validate = .ok validated)
    (rowIDs : Nat → Int) {env : StageEnv} (persists : env.Persists) {turns : Nat}
    (enough : validated.stages.length < turns)
    (continues : ∀ st ∈ validated.stages, validated.effectiveOnFailure st = "continue") :
    ∃ dag, runStagesDAG env turns (validated.resolvedStages rowIDs) = some (.ok dag) ∧
      ∀ st ∈ validated.resolvedStages rowIDs,
        (Executed dag st ↔
          ∀ other, Relation.TransGen (Needs (validated.resolvedStages rowIDs)) other st →
            ExecutedAndSucceeded dag other) ∧
        (Executed dag st ↔
          ∀ other, Relation.TransGen (Needs (validated.resolvedStages rowIDs)) other st →
            env.succeeds other = true) := by
  have graph := Manifest.validate_graph valid rowIDs
  have policies := @resolvedStages_continue validated rowIDs continues
  rw [← resolvedStages_length validated rowIDs] at enough
  obtain ⟨dag, ran, consistent, settled⟩ := runStagesDAG_ends persists graph enough
  refine ⟨dag, ran, ?_⟩
  intro st member
  refine ⟨consistent.executed_iff graph settled policies member, ?_, ?_⟩
  · intro executed other needs
    have succeeded := consistent.executed_of_transitive graph needs executed
    exact consistent.sound.outcomes other true succeeded.2
  · exact consistent.executed_of_outcomes graph settled policies (graph.acyclic st member) member

theorem contactsFirst_follows_graph :
    (∀ st ∈ contactsFirst.stages, contactsFirst.effectiveOnFailure st = "continue") ∧
    ∃ dag, runStagesDAG accountsFail 3 (contactsFirst.resolvedStages (fun i => i)) =
        some (.ok dag) ∧
      ∀ st ∈ contactsFirst.resolvedStages (fun i => i),
        (Executed dag st ↔
          ∀ other, Relation.TransGen (Needs (contactsFirst.resolvedStages (fun i => i))) other st →
            ExecutedAndSucceeded dag other) ∧
        (Executed dag st ↔
          ∀ other, Relation.TransGen (Needs (contactsFirst.resolvedStages (fun i => i))) other st →
            accountsFail.succeeds other = true) :=
  ⟨by decide,
    dag_continue_follows_graph contactsFirst_valid (fun i => i) accountsFail_persists (by decide)
      (by decide)⟩

end MigrationPlatform.Batch
