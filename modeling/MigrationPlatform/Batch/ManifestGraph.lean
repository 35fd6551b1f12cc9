/-
The dependency graphs that `Manifest.Validate` accepts.

The relation is read off the manifest as it is given, with the entries trimmed
and without regard to how often they occur. Where everything else about a
manifest is in order, it is accepted exactly when its ids are distinct, its
entries name other stages and no stage comes before itself.
-/

import MigrationPlatform.Batch.Manifest

namespace MigrationPlatform.Batch

def Declares (stages : List ManifestStage) (d id : String) : Prop :=
  ∃ s ∈ stages, s.id = id ∧ ∃ entry ∈ s.dependsOn, trimSpace entry = d

def Lists (stages : List ManifestStage) (d id : String) : Prop :=
  ∃ s ∈ stages, s.id = id ∧ d ∈ s.dependsOn

structure AcyclicGraph (stages : List ManifestStage) : Prop where
  distinct : (stageIDs stages).Nodup
  others : ∀ s ∈ stages, ∀ entry ∈ s.dependsOn,
    trimSpace entry ∈ stageIDs stages ∧ trimSpace entry ≠ s.id
  acyclic : ∀ id, ¬Relation.TransGen (Declares stages) id id

/-- The checks of one stage other than those of its dependencies and of ids
that occur twice. -/
structure ManifestStage.FieldsValid (s : ManifestStage) : Prop where
  id : trimSpace s.id ≠ ""
  idSafe : safeStageID s.id = true
  file : trimSpace s.file ≠ ""
  filePath : validateRelPath 0 s.file = .ok ()
  templateKey : trimSpace s.templateKey ≠ ""
  policy : toLower (trimSpace s.onStageFailure) ∈ ["", "stop", "continue"]

structure Manifest.FieldsValid (m : Manifest) : Prop where
  version : m.version = 1
  policy : normalizedPolicy m.onStageFailure ∈ ["stop", "continue"]
  stages : ∀ s ∈ m.stages, s.FieldsValid

private theorem first_joins {own norm found seen : Prop}
    (rest : norm ∨ own ∨ seen ↔ found ∨ own ∨ seen) :
    (own ∨ norm) ∨ seen ↔ (own ∨ found) ∨ seen := by
  tauto

theorem normalizeDependsOn_ok {index : Nat} {id : String} (entries : List String) :
    ∀ (depSeen : List String) (position : Nat) (norm : List String),
      normalizeDependsOn index id depSeen position entries = .ok norm →
      (∀ entry ∈ entries, trimSpace entry ≠ "" ∧ trimSpace entry ≠ id) ∧
        ∀ d, d ∈ norm ∨ d ∈ depSeen ↔ (∃ entry ∈ entries, trimSpace entry = d) ∨ d ∈ depSeen := by
  induction entries with
  | nil =>
      intro depSeen position norm normalized
      cases normalized
      refine ⟨fun entry absent => absurd absent List.not_mem_nil, ?_⟩
      intro d
      simp
  | cons entry rest ih =>
      intro depSeen position norm normalized
      simp only [normalizeDependsOn] at normalized
      split at normalized
      · cases normalized
      rename_i named
      split at normalized
      · cases normalized
      rename_i other
      have both : ∀ known, (∀ later ∈ rest, trimSpace later ≠ "" ∧ trimSpace later ≠ id) →
          known ∈ entry :: rest → trimSpace known ≠ "" ∧ trimSpace known ≠ id := by
        intro known later member
        rcases List.mem_cons.mp member with same | among
        · rw [same]
          exact ⟨named, other⟩
        · exact later known among
      split at normalized
      · rename_i repeated
        obtain ⟨later, members⟩ := ih depSeen (position + 1) norm normalized
        refine ⟨fun known => both known later, ?_⟩
        intro d
        rw [members, List.exists_mem_cons_iff]
        constructor
        · rintro (found | seen)
          · exact .inl (.inr found)
          · exact .inr seen
        · rintro ((same | found) | seen)
          · rw [← same]
            exact .inr repeated
          · exact .inl found
          · exact .inr seen
      · cases tail : normalizeDependsOn index id (trimSpace entry :: depSeen) (position + 1) rest with
        | error problem =>
            rw [tail] at normalized
            cases normalized
        | ok normRest =>
            rw [tail] at normalized
            cases normalized
            obtain ⟨later, members⟩ := ih _ (position + 1) normRest tail
            refine ⟨fun known => both known later, ?_⟩
            intro d
            have here := members d
            rw [List.mem_cons, @eq_comm _ d] at here
            rw [List.mem_cons, List.exists_mem_cons_iff, @eq_comm _ d]
            exact first_joins here

private theorem normalizeDependsOn_total {index : Nat} {id : String} (entries : List String) :
    ∀ (depSeen : List String) (position : Nat),
      (∀ entry ∈ entries, trimSpace entry ≠ "" ∧ trimSpace entry ≠ id) →
      ∃ norm, normalizeDependsOn index id depSeen position entries = .ok norm := by
  induction entries with
  | nil =>
      intro depSeen position _proper
      exact ⟨[], rfl⟩
  | cons entry rest ih =>
      intro depSeen position proper
      obtain ⟨named, other⟩ := proper entry List.mem_cons_self
      have later : ∀ known ∈ rest, trimSpace known ≠ "" ∧ trimSpace known ≠ id :=
        fun known member => proper known (List.mem_cons_of_mem entry member)
      simp only [normalizeDependsOn, if_neg named, if_neg other]
      split
      · exact ih depSeen (position + 1) later
      · obtain ⟨norm, normalized⟩ := ih (trimSpace entry :: depSeen) (position + 1) later
        rw [normalized]
        exact ⟨trimSpace entry :: norm, rfl⟩

private theorem validateRelPath_ok {path : String} (index : Nat)
    (valid : validateRelPath 0 path = .ok ()) :
    validateRelPath index path = .ok () := by
  simp only [validateRelPath] at valid ⊢
  split at valid
  · cases valid
  rename_i nonempty
  split at valid
  · cases valid
  rename_i relative
  split at valid
  · cases valid
  rename_i clean
  rw [if_neg nonempty, if_neg relative, if_neg clean]

private theorem validateStage_total {seen : List String} {index : Nat} {s : ManifestStage}
    (fields : s.FieldsValid) (fresh : s.id ∉ seen)
    (proper : ∀ entry ∈ s.dependsOn, trimSpace entry ≠ "" ∧ trimSpace entry ≠ s.id) :
    ∃ stage, validateStage seen index s = .ok stage := by
  have policy : ¬(toLower (trimSpace s.onStageFailure) ≠ "" ∧
      toLower (trimSpace s.onStageFailure) ≠ "stop" ∧
      toLower (trimSpace s.onStageFailure) ≠ "continue") := by
    rintro ⟨given, notStop, notContinue⟩
    rcases List.mem_cons.mp fields.policy with none | named
    · exact given none
    rcases List.mem_cons.mp named with stop | more
    · exact notStop stop
    · exact notContinue (List.mem_singleton.mp more)
  have safe : ¬safeStageID s.id = false := by
    rw [fields.idSafe]
    exact Bool.noConfusion
  obtain ⟨norm, normalized⟩ := @normalizeDependsOn_total index s.id s.dependsOn [] 0 proper
  simp only [validateStage, if_neg fields.id, if_neg safe, if_neg fresh, if_neg fields.file,
    validateRelPath_ok index fields.filePath, if_neg fields.templateKey, if_neg policy, normalized]
  exact ⟨_, rfl⟩

theorem validateStage_dependencies {seen : List String} {index : Nat} {s stage : ManifestStage}
    (valid : validateStage seen index s = .ok stage) :
    (∀ entry ∈ s.dependsOn, trimSpace entry ≠ "" ∧ trimSpace entry ≠ s.id) ∧
      ∀ d, d ∈ stage.dependsOn ↔ ∃ entry ∈ s.dependsOn, trimSpace entry = d := by
  simp only [validateStage] at valid
  split at valid
  · cases valid
  split at valid
  · cases valid
  split at valid
  · cases valid
  split at valid
  · cases valid
  split at valid
  · cases valid
  split at valid
  · cases valid
  split at valid
  · cases valid
  split at valid
  · cases valid
  rename_i norm normalized
  cases valid
  obtain ⟨proper, members⟩ := normalizeDependsOn_ok s.dependsOn [] 0 norm normalized
  refine ⟨proper, ?_⟩
  intro d
  have here := members d
  rw [or_iff_left List.not_mem_nil, or_iff_left List.not_mem_nil] at here
  exact here

private theorem validateStages_total (stages : List ManifestStage) :
    ∀ (seen : List String) (index : Nat), (∀ s ∈ stages, s.FieldsValid) →
      (stageIDs stages).Nodup → (∀ id ∈ stageIDs stages, id ∉ seen) →
      (∀ s ∈ stages, ∀ entry ∈ s.dependsOn, trimSpace entry ≠ "" ∧ trimSpace entry ≠ s.id) →
      ∃ validated, validateStages seen index stages = .ok validated := by
  induction stages with
  | nil =>
      intro seen index _fields _distinct _fresh _proper
      exact ⟨[], rfl⟩
  | cons s rest ih =>
      intro seen index fields distinct fresh proper
      obtain ⟨apart, distinctRest⟩ := List.nodup_cons.mp distinct
      obtain ⟨stage, valid⟩ := @validateStage_total seen index s (fields s List.mem_cons_self)
        (fresh s.id List.mem_cons_self) (proper s List.mem_cons_self)
      have freshRest : ∀ id ∈ stageIDs rest, id ∉ s.id :: seen := by
        intro id member before
        rcases List.mem_cons.mp before with same | early
        · exact apart (same ▸ member)
        · exact fresh id (List.mem_cons_of_mem _ member) early
      obtain ⟨later, validRest⟩ := ih (s.id :: seen) (index + 1)
        (fun other member => fields other (List.mem_cons_of_mem s member)) distinctRest freshRest
        (fun other member => proper other (List.mem_cons_of_mem s member))
      simp only [validateStages, valid, validRest]
      exact ⟨_, rfl⟩

theorem validateStages_relation (stages : List ManifestStage) :
    ∀ (seen : List String) (index : Nat) (validated : List ManifestStage),
      validateStages seen index stages = .ok validated →
      (∀ s ∈ stages, ∀ entry ∈ s.dependsOn, trimSpace entry ≠ "" ∧ trimSpace entry ≠ s.id) ∧
        ∀ d id, Lists validated d id ↔ Declares stages d id := by
  induction stages with
  | nil =>
      intro seen index validated valid
      cases valid
      refine ⟨fun s absent => absurd absent List.not_mem_nil, ?_⟩
      intro d id
      simp [Lists, Declares]
  | cons s rest ih =>
      intro seen index validated valid
      simp only [validateStages] at valid
      split at valid
      · cases valid
      rename_i stage validStage
      split at valid
      · cases valid
      rename_i later validLater
      cases valid
      obtain ⟨proper, members⟩ := validateStage_dependencies validStage
      obtain ⟨properRest, relation⟩ := ih _ _ later validLater
      constructor
      · intro other member
        rcases List.mem_cons.mp member with same | inside
        · rw [same]
          exact proper
        · exact properRest other inside
      · intro d id
        have tails := relation d id
        unfold Lists Declares at tails ⊢
        rw [List.exists_mem_cons_iff, List.exists_mem_cons_iff, tails, members,
          (validateStage_id validStage).1]

/-! ### The graph -/

theorem lists_iff {stages : List ManifestStage} (distinct : (stageIDs stages).Nodup) (d id : String) :
    Lists stages d id ↔ d ∈ dependenciesOf stages id := by
  constructor
  · rintro ⟨s, member, rfl, names⟩
    rw [dependenciesOf_eq distinct member]
    exact names
  · intro names
    unfold dependenciesOf at names
    cases found : stages.find? (fun s => decide (s.id = id)) with
    | none =>
        rw [found] at names
        cases names
    | some s =>
        rw [found] at names
        have same := List.find?_some found
        exact ⟨s, List.mem_of_find?_eq_some found, of_decide_eq_true same, names⟩

theorem validateDependsOnDAG_iff {stages : List ManifestStage} (distinct : (stageIDs stages).Nodup) :
    validateDependsOnDAG stages = .ok () ↔
      (∀ s ∈ stages, ∀ d ∈ s.dependsOn, d ∈ stageIDs stages) ∧
        ∀ id, ¬Relation.TransGen (Lists stages) id id := by
  have relation : Lists stages = fun d id => d ∈ dependenciesOf stages id := by
    funext d id
    exact propext (lists_iff distinct d id)
  have length : (stageIDs stages).length = stages.length := List.length_map _
  -- a node that comes before itself is one of the stages
  have inside : ∀ id, Relation.TransGen (Lists stages) id id → id ∈ stageIDs stages := by
    intro id cycle
    obtain ⟨_, _, s, member, same, _⟩ := Relation.TransGen.tail'_iff.mp cycle
    rw [← same]
    exact List.mem_map_of_mem member
  have closed : (∀ s ∈ stages, ∀ d ∈ s.dependsOn, d ∈ stageIDs stages) →
      ∀ id ∈ stageIDs stages, ∀ d ∈ dependenciesOf stages id, d ∈ stageIDs stages := by
    intro known id _member d names
    obtain ⟨s, member, _, listed⟩ := (lists_iff distinct d id).mpr names
    exact known s member d listed
  constructor
  · intro valid
    obtain ⟨known, complete⟩ := validateDependsOnDAG_ok valid
    refine ⟨known, ?_⟩
    intro id cycle
    rw [← length] at complete
    have none := (KahnSort.sorted_iff distinct (closed known)).mp complete id (inside id cycle)
    rw [relation] at cycle
    exact none cycle
  · rintro ⟨known, acyclic⟩
    have complete := (KahnSort.sorted_iff distinct (closed known)).mpr
      (fun id _member => relation ▸ acyclic id)
    have allKnown : (declaredDependencies stages).find?
        (fun edge => decide (edge.2 ∉ stageIDs stages)) = none := by
      apply List.find?_eq_none.mpr
      intro edge declared unknown
      obtain ⟨s, member, among⟩ := List.mem_flatMap.mp declared
      obtain ⟨d, names, rfl⟩ := List.mem_map.mp among
      exact of_decide_eq_true unknown (known s member d names)
    simp only [validateDependsOnDAG, allKnown, complete, length, ne_eq, not_true_eq_false, if_false]

private theorem acyclic_of_unused {stages : List ManifestStage}
    (none : ∀ s ∈ stages, s.dependsOn = [])
    (id : String) : ¬Relation.TransGen (Lists stages) id id := by
  intro cycle
  obtain ⟨d, _, s, member, _, names⟩ := Relation.TransGen.tail'_iff.mp cycle
  rw [none s member] at names
  cases names

theorem checked_iff {stages : List ManifestStage} (distinct : (stageIDs stages).Nodup) :
    (usesDependsOn stages = false ∨ validateDependsOnDAG stages = .ok ()) ↔
      (∀ s ∈ stages, ∀ d ∈ s.dependsOn, d ∈ stageIDs stages) ∧
        ∀ id, ¬Relation.TransGen (Lists stages) id id := by
  rw [validateDependsOnDAG_iff distinct]
  apply or_iff_right_of_imp
  intro unused
  have none := usesDependsOn_eq_false unused
  refine ⟨?_, acyclic_of_unused none⟩
  intro s member d names
  rw [none s member] at names
  cases names

theorem Manifest.validate_ok_iff {m : Manifest} (fields : m.FieldsValid) (nonempty : m.stages ≠ [])
    (validated : Manifest) :
    m.validate = .ok validated ↔ ∃ stages, validateStages [] 0 m.stages = .ok stages ∧
      (usesDependsOn stages = false ∨ validateDependsOnDAG stages = .ok ()) ∧
      validated = { m with onStageFailure := normalizedPolicy m.onStageFailure, stages := stages } := by
  have version : ¬m.version ≠ 1 := fun other => other fields.version
  have policy : ¬(normalizedPolicy m.onStageFailure ≠ "stop" ∧
      normalizedPolicy m.onStageFailure ≠ "continue") := by
    rintro ⟨notStop, notContinue⟩
    rcases List.mem_cons.mp fields.policy with stop | more
    · exact notStop stop
    · exact notContinue (List.mem_singleton.mp more)
  simp only [Manifest.validate, if_neg version, if_neg nonempty, if_neg policy]
  cases validStages : validateStages [] 0 m.stages with
  | error problem =>
      constructor
      · intro impossible
        cases impossible
      · rintro ⟨_, impossible, _⟩
        cases impossible
  | ok stages =>
      cases used : usesDependsOn stages with
      | false =>
          simp only [used, Bool.false_eq_true, if_false]
          constructor
          · intro accepted
            cases accepted
            exact ⟨stages, rfl, .inl used, rfl⟩
          · rintro ⟨_, same, _, rfl⟩
            cases same
            rfl
      | true =>
          simp only [used, if_true]
          cases sorted : validateDependsOnDAG stages with
          | error problem =>
              constructor
              · intro impossible
                cases impossible
              · rintro ⟨_, same, checked, _⟩
                cases same
                rw [used, sorted] at checked
                rcases checked with impossible | impossible
                · cases impossible
                · cases impossible
          | ok done =>
              constructor
              · intro accepted
                cases accepted
                exact ⟨stages, rfl, .inr sorted, rfl⟩
              · rintro ⟨_, same, _, rfl⟩
                cases same
                rfl

/-- With everything else in order, the manifests that are accepted are those of
the acyclic graphs, and normalizing does not change the graph. -/
theorem Manifest.validates_acyclic {m : Manifest} (fields : m.FieldsValid)
    (nonempty : m.stages ≠ []) :
    ((∃ validated, m.validate = .ok validated) ↔ AcyclicGraph m.stages) ∧
      ∀ validated, m.validate = .ok validated →
        stageIDs validated.stages = stageIDs m.stages ∧
          ∀ d id, Lists validated.stages d id ↔ Declares m.stages d id := by
  have kept : ∀ stages, validateStages [] 0 m.stages = .ok stages →
      Lists stages = Declares m.stages := by
    intro stages valid
    funext d id
    exact propext ((validateStages_relation m.stages [] 0 stages valid).2 d id)
  constructor
  · constructor
    · rintro ⟨validated, valid⟩
      obtain ⟨stages, validStages, checked, rfl⟩ := (validate_ok_iff fields nonempty validated).mp valid
      obtain ⟨sameIDs, distinct, _⟩ := validateStages_ids m.stages [] 0 stages validStages
      obtain ⟨known, acyclic⟩ := (checked_iff distinct).mp checked
      have relation := kept stages validStages
      rw [relation] at acyclic
      refine ⟨sameIDs ▸ distinct, ?_, acyclic⟩
      intro s member entry names
      have proper := (validateStages_relation m.stages [] 0 stages validStages).1 s member entry names
      have declared : Declares m.stages (trimSpace entry) s.id := ⟨s, member, rfl, entry, names, rfl⟩
      rw [← relation] at declared
      obtain ⟨stage, among, _, listed⟩ := declared
      rw [← sameIDs]
      exact ⟨known stage among _ listed, proper.2⟩
    · intro graph
      have proper : ∀ s ∈ m.stages, ∀ entry ∈ s.dependsOn,
          trimSpace entry ≠ "" ∧ trimSpace entry ≠ s.id := by
        intro s member entry names
        obtain ⟨known, other⟩ := graph.others s member entry names
        refine ⟨?_, other⟩
        intro empty
        -- no stage has an empty id
        rw [empty] at known
        obtain ⟨stage, among, same⟩ := List.mem_map.mp known
        apply (fields.stages stage among).id
        rw [same]
        decide
      obtain ⟨stages, validStages⟩ := validateStages_total m.stages [] 0 fields.stages graph.distinct
        (fun _ _ => List.not_mem_nil) proper
      obtain ⟨sameIDs, distinct, _⟩ := validateStages_ids m.stages [] 0 stages validStages
      have relation := kept stages validStages
      have checked : usesDependsOn stages = false ∨ validateDependsOnDAG stages = .ok () := by
        apply (checked_iff distinct).mpr
        rw [relation]
        refine ⟨?_, graph.acyclic⟩
        intro s member d names
        have listed : Lists stages d s.id := ⟨s, member, rfl, names⟩
        rw [relation] at listed
        obtain ⟨given, among, _, entry, declared, rfl⟩ := listed
        rw [sameIDs]
        exact (graph.others given among entry declared).1
      exact ⟨_, (validate_ok_iff fields nonempty _).mpr ⟨stages, validStages, checked, rfl⟩⟩
  · intro validated valid
    obtain ⟨stages, validStages, _, rfl⟩ := (validate_ok_iff fields nonempty validated).mp valid
    refine ⟨(validateStages_ids m.stages [] 0 stages validStages).1, ?_⟩
    intro d id
    exact (validateStages_relation m.stages [] 0 stages validStages).2 d id

def loadThenCheck : Manifest :=
  { version := 1
    stages :=
      [{ id := "load", file := "load.csv", templateKey := "t" },
        { id := "check", file := "check.csv", templateKey := "t", dependsOn := [" load ", "load"] }] }

private theorem loadThenCheck_fields : loadThenCheck.FieldsValid := by
  refine ⟨rfl, by decide, ?_⟩
  intro s member
  rcases List.mem_cons.mp member with first | later
  · rw [first]
    constructor <;> decide
  · rw [List.mem_singleton.mp later]
    constructor <;> decide

theorem loadThenCheck_accepted : AcyclicGraph loadThenCheck.stages ∧
    ∀ validated, loadThenCheck.validate = .ok validated → Lists validated.stages "load" "check" := by
  obtain ⟨accepted, kept⟩ :=
    Manifest.validates_acyclic loadThenCheck_fields (List.cons_ne_nil _ _)
  refine ⟨accepted.mp ⟨_, rfl⟩, ?_⟩
  intro validated valid
  apply ((kept validated valid).2 "load" "check").mpr
  exact ⟨_, List.mem_cons_of_mem _ List.mem_cons_self, rfl, " load ", List.mem_cons_self, by decide⟩

def noStages : Manifest := { version := 1, stages := [] }

/-- A manifest without stages is refused, though nothing in it is out of order. -/
theorem noStages_refused : noStages.FieldsValid ∧ AcyclicGraph noStages.stages ∧
    noStages.validate = .error .noStages := by
  refine ⟨⟨rfl, by decide, ?_⟩, ⟨List.nodup_nil, ?_, ?_⟩, rfl⟩
  · intro s absent
    cases absent
  · intro s absent
    cases absent
  · intro id cycle
    obtain ⟨_, _, s, absent, _⟩ := Relation.TransGen.tail'_iff.mp cycle
    cases absent

end MigrationPlatform.Batch
