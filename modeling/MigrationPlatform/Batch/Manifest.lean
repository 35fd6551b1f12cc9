/-
Batch manifests: the checks of `Manifest.Validate` and the stages it hands on.

`Validate` normalizes as it checks, so the model returns the manifest it leaves
behind. The order of its errors is the order of the source: the fields of one
stage in turn, then the next stage, and the dependency graph last.
-/

import MigrationPlatform.Foundation.KahnSort
import Mathlib.Tactic.ByContra

namespace MigrationPlatform.Batch

structure ManifestStage where
  id : String
  file : String
  templateKey : String
  onStageFailure : String := ""
  dependsOn : List String := []
deriving DecidableEq, Repr

structure Manifest where
  version : Int
  batchID : String := ""
  onStageFailure : String := ""
  stages : List ManifestStage
deriving DecidableEq, Repr

/-- `quoted` stands for the verb `%q`. -/
inductive ManifestError
  | version (found : Int)
  | noStages
  | policy (found : String)
  | idRequired (index : Nat)
  | idUnsafe (index : Nat) (id : String)
  | duplicate (id : String)
  | fileRequired (index : Nat)
  | fileEmpty (index : Nat)
  | fileAbsolute (index : Nat) (path : String)
  | fileSegment (index : Nat) (path : String)
  | templateKeyRequired (index : Nat)
  | stagePolicy (index : Nat)
  | dependencyEmpty (index position : Nat)
  | dependsOnItself (index : Nat) (id : String)
  | dependencyUnknown (id dependency : String)
  | cycle (ids : List String)
deriving DecidableEq, Repr

def stageField (index : Nat) (field : String) : String :=
  "stages[" ++ toString index ++ "]" ++ field

def ManifestError.text (quoted : String → String) : ManifestError → String
  | .version found => "unsupported manifest version " ++ toString found ++ " (want 1)"
  | .noStages => "manifest stages must be non-empty"
  | .policy found => "onStageFailure must be stop|continue, got " ++ quoted found
  | .idRequired index => stageField index ".id is required"
  | .idUnsafe index id => stageField index ".id " ++ quoted id ++ " is not a safe path component"
  | .duplicate id => "duplicate stage id " ++ quoted id
  | .fileRequired index => stageField index ".file is required"
  | .fileEmpty index => stageField index ".file: empty path"
  | .fileAbsolute index path =>
      stageField index ".file: absolute or drive path not allowed: " ++ quoted path
  | .fileSegment index path => stageField index ".file: unsafe path segment in " ++ quoted path
  | .templateKeyRequired index => stageField index ".templateKey is required"
  | .stagePolicy index => stageField index ".onStageFailure must be stop|continue"
  | .dependencyEmpty index position =>
      stageField index ".dependsOn[" ++ toString position ++ "] is empty"
  | .dependsOnItself index id => stageField index " " ++ quoted id ++ " depends on itself"
  | .dependencyUnknown id dependency =>
      "stage " ++ quoted id ++ " dependsOn unknown stage " ++ quoted dependency
  | .cycle ids => "dependsOn cycle involving stages: " ++ ", ".intercalate ids

/-! ### The strings of the standard library -/

def spaceRunes : List Nat :=
  [0x09, 0x0A, 0x0B, 0x0C, 0x0D, 0x20, 0x85, 0xA0, 0x1680, 0x2000, 0x2001, 0x2002, 0x2003, 0x2004,
    0x2005, 0x2006, 0x2007, 0x2008, 0x2009, 0x200A, 0x2028, 0x2029, 0x202F, 0x205F, 0x3000]

def isSpaceRune (c : Char) : Bool := spaceRunes.contains c.toNat

def trimRunes (runes : List Char) : List Char :=
  ((runes.dropWhile isSpaceRune).reverse.dropWhile isSpaceRune).reverse

def trimSpace (text : String) : String := String.ofList (trimRunes text.toList)

/-- Lower case as far as a comparison with an ASCII word can see it: outside
ASCII only these two runes have an ASCII letter as their lower case. -/
def toLowerRune (c : Char) : Char :=
  if c.toNat = 0x130 then 'i' else if c.toNat = 0x212A then 'k' else c.toLower

def toLower (text : String) : String := String.ofList (text.toList.map toLowerRune)

def isStageIDHead (c : Char) : Bool := c.isAlphanum

def isStageIDTail (c : Char) : Bool := c.isAlphanum || c == '.' || c == '_' || c == '-'

/-- The expression `^[A-Za-z0-9][A-Za-z0-9._-]{0,127}$`. -/
def safeStageID (id : String) : Bool :=
  match id.toList with
  | [] => false
  | head :: tail => isStageIDHead head && tail.all isStageIDTail && tail.length ≤ 127

def isUnsafeSegment (segment : List Char) : Bool :=
  segment.isEmpty || segment == ['.'] || segment == ['.', '.']

/-- The error constructors are those of the stage whose file is checked. -/
def validateRelPath (index : Nat) (path : String) : Except ManifestError Unit :=
  let runes := trimRunes (path.toList.map (fun c => if c = '\\' then '/' else c))
  if runes = [] then
    .error (.fileEmpty index)
  else if runes.head? = some '/' ∨ ':' ∈ runes then
    .error (.fileAbsolute index (String.ofList runes))
  else if (runes.splitOn '/').any isUnsafeSegment = true then
    .error (.fileSegment index (String.ofList runes))
  else
    .ok ()

def normalizeDependsOn (index : Nat) (id : String) (depSeen : List String) (position : Nat) :
    List String → Except ManifestError (List String)
  | [] => .ok []
  | dependency :: rest =>
      let d := trimSpace dependency
      if d = "" then
        .error (.dependencyEmpty index position)
      else if d = id then
        .error (.dependsOnItself index id)
      else if d ∈ depSeen then
        normalizeDependsOn index id depSeen (position + 1) rest
      else
        match normalizeDependsOn index id (d :: depSeen) (position + 1) rest with
        | .error problem => .error problem
        | .ok norm => .ok (d :: norm)

/-- One turn of the loop over the stages; `seen` holds the ids before it. An
override of blanks alone passes the check and is kept as it is. -/
def validateStage (seen : List String) (index : Nat) (s : ManifestStage) :
    Except ManifestError ManifestStage :=
  let ov := toLower (trimSpace s.onStageFailure)
  if trimSpace s.id = "" then .error (.idRequired index)
  else if safeStageID s.id = false then .error (.idUnsafe index s.id)
  else if s.id ∈ seen then .error (.duplicate s.id)
  else if trimSpace s.file = "" then .error (.fileRequired index)
  else
    match validateRelPath index s.file with
    | .error problem => .error problem
    | .ok () =>
        if trimSpace s.templateKey = "" then .error (.templateKeyRequired index)
        else if ov ≠ "" ∧ ov ≠ "stop" ∧ ov ≠ "continue" then .error (.stagePolicy index)
        else
          match normalizeDependsOn index s.id [] 0 s.dependsOn with
          | .error problem => .error problem
          | .ok norm =>
              .ok { s with
                onStageFailure := if ov ≠ "" then ov else s.onStageFailure
                dependsOn := norm }

def validateStages (seen : List String) (index : Nat) :
    List ManifestStage → Except ManifestError (List ManifestStage)
  | [] => .ok []
  | s :: rest =>
      match validateStage seen index s with
      | .error problem => .error problem
      | .ok stage =>
          match validateStages (s.id :: seen) (index + 1) rest with
          | .error problem => .error problem
          | .ok later => .ok (stage :: later)

def usesDependsOn (stages : List ManifestStage) : Bool :=
  stages.any (fun s => decide (0 < s.dependsOn.length))

def stageIDs (stages : List ManifestStage) : List String := stages.map ManifestStage.id

/-- The `dependsOn` list under an id; ids are distinct where this is asked. -/
def dependenciesOf (stages : List ManifestStage) (id : String) : List String :=
  ((stages.find? (fun s => decide (s.id = id))).map ManifestStage.dependsOn).getD []

def declaredDependencies (stages : List ManifestStage) : List (String × String) :=
  stages.flatMap (fun s => s.dependsOn.map (fun d => (s.id, d)))

def validateDependsOnDAG (stages : List ManifestStage) : Except ManifestError Unit :=
  match (declaredDependencies stages).find? (fun edge => decide (edge.2 ∉ stageIDs stages)) with
  | some edge => .error (.dependencyUnknown edge.1 edge.2)
  | none =>
      let sorted := KahnSort.sort (stageIDs stages) (dependenciesOf stages)
      if sorted.taken.length ≠ stages.length then
        .error (.cycle ((stageIDs stages).filter (fun id => decide (0 < sorted.indegree id))))
      else
        .ok ()

def normalizedPolicy (onStageFailure : String) : String :=
  let onFail := toLower (trimSpace onStageFailure)
  if onFail = "" then "stop" else onFail

def Manifest.validate (m : Manifest) : Except ManifestError Manifest :=
  let onFail := normalizedPolicy m.onStageFailure
  if m.version ≠ 1 then .error (.version m.version)
  else if m.stages = [] then .error .noStages
  else if onFail ≠ "stop" ∧ onFail ≠ "continue" then .error (.policy m.onStageFailure)
  else
    match validateStages [] 0 m.stages with
    | .error problem => .error problem
    | .ok stages =>
        let validated : Manifest := { m with onStageFailure := onFail, stages := stages }
        if usesDependsOn stages then
          match validateDependsOnDAG stages with
          | .error problem => .error problem
          | .ok () => .ok validated
        else
          .ok validated

def Manifest.effectiveOnFailure (m : Manifest) (stage : ManifestStage) : String :=
  if stage.onStageFailure ≠ "" then stage.onStageFailure
  else if m.onStageFailure ≠ "" then m.onStageFailure
  else "stop"

structure WellFormed (stages : List ManifestStage) : Prop where
  distinct : (stageIDs stages).Nodup
  known : ∀ s ∈ stages, ∀ d ∈ s.dependsOn, d ∈ stageIDs stages
  acyclic : ∀ id ∈ stageIDs stages, Acc (fun d id => d ∈ dependenciesOf stages id) id

theorem dependenciesOf_eq {stages : List ManifestStage} (distinct : (stageIDs stages).Nodup)
    {s : ManifestStage} (member : s ∈ stages) : dependenciesOf stages s.id = s.dependsOn := by
  unfold dependenciesOf
  induction stages with
  | nil => cases member
  | cons first rest ih =>
      obtain ⟨fresh, distinctRest⟩ := List.nodup_cons.mp distinct
      rcases List.mem_cons.mp member with same | later
      · subst same
        have found : decide (s.id = s.id) = true := decide_eq_true rfl
        rw [List.find?_cons, found]
        rfl
      · have different : first.id ≠ s.id := by
          intro equal
          apply fresh
          rw [equal]
          exact List.mem_map_of_mem later
        have missed : decide (first.id = s.id) = false := decide_eq_false different
        simp only [List.find?_cons, missed]
        exact ih distinctRest later

private theorem dependenciesOf_eq_nil {stages : List ManifestStage}
    (none : ∀ s ∈ stages, s.dependsOn = []) (id : String) : dependenciesOf stages id = [] := by
  unfold dependenciesOf
  cases found : stages.find? (fun s => decide (s.id = id)) with
  | none => rfl
  | some s => exact none s (List.mem_of_find?_eq_some found)

theorem validateStage_id {seen : List String} {index : Nat} {s stage : ManifestStage}
    (valid : validateStage seen index s = .ok stage) : stage.id = s.id ∧ s.id ∉ seen := by
  simp only [validateStage] at valid
  split at valid
  · cases valid
  split at valid
  · cases valid
  split at valid
  · cases valid
  rename_i fresh
  split at valid
  · cases valid
  split at valid
  · cases valid
  split at valid
  · cases valid
  split at valid
  · cases valid
  split at valid
  · cases valid
  · cases valid
    exact ⟨rfl, fresh⟩

theorem validateStages_ids (stages : List ManifestStage) :
    ∀ (seen : List String) (index : Nat) (validated : List ManifestStage),
      validateStages seen index stages = .ok validated →
      stageIDs validated = stageIDs stages ∧ (stageIDs validated).Nodup ∧
        ∀ id ∈ stageIDs validated, id ∉ seen := by
  induction stages with
  | nil =>
      intro seen index validated valid
      cases valid
      exact ⟨rfl, List.nodup_nil, fun _ absent => absurd absent List.not_mem_nil⟩
  | cons s rest ih =>
      intro seen index validated valid
      simp only [validateStages] at valid
      split at valid
      · cases valid
      rename_i stage validStage
      split at valid
      · cases valid
      rename_i later validLater
      cases valid
      obtain ⟨sameID, fresh⟩ := validateStage_id validStage
      obtain ⟨sameIDs, distinct, apart⟩ := ih (s.id :: seen) (index + 1) later validLater
      have expand : stageIDs (stage :: later) = s.id :: stageIDs later := by
        change stage.id :: stageIDs later = _
        rw [sameID]
      rw [expand]
      refine ⟨?_, List.nodup_cons.mpr ⟨?_, distinct⟩, ?_⟩
      · change _ = s.id :: stageIDs rest
        rw [sameIDs]
      · intro member
        exact apart s.id member List.mem_cons_self
      · intro id member
        rcases List.mem_cons.mp member with same | inside
        · rw [same]
          exact fresh
        · intro before
          exact apart id inside (List.mem_cons_of_mem _ before)

theorem validateDependsOnDAG_ok {stages : List ManifestStage}
    (valid : validateDependsOnDAG stages = .ok ()) :
    (∀ s ∈ stages, ∀ d ∈ s.dependsOn, d ∈ stageIDs stages) ∧
      (KahnSort.sort (stageIDs stages) (dependenciesOf stages)).taken.length = stages.length := by
  simp only [validateDependsOnDAG] at valid
  split at valid
  · cases valid
  rename_i allKnown
  split at valid
  · cases valid
  rename_i complete
  constructor
  · intro s member d names
    have edge : (s.id, d) ∈ declaredDependencies stages :=
      List.mem_flatMap.mpr ⟨s, member, List.mem_map.mpr ⟨d, names, rfl⟩⟩
    have found := List.find?_eq_none.mp allKnown (s.id, d) edge
    by_contra unknown
    exact found (decide_eq_true unknown)
  · exact not_ne_iff.mp complete

theorem usesDependsOn_eq_false {stages : List ManifestStage} (unused : usesDependsOn stages = false) :
    ∀ s ∈ stages, s.dependsOn = [] := by
  intro s member
  have empty := List.any_eq_false.mp unused s member
  rw [decide_eq_true_iff] at empty
  exact List.length_eq_zero_iff.mp (by omega)

theorem Manifest.validate_wellFormed {m validated : Manifest} (valid : m.validate = .ok validated) :
    WellFormed validated.stages := by
  simp only [Manifest.validate] at valid
  split at valid
  · cases valid
  split at valid
  · cases valid
  split at valid
  · cases valid
  split at valid
  · cases valid
  rename_i stages validStages
  have distinct := (validateStages_ids m.stages [] 0 stages validStages).2.1
  split at valid
  · split at valid
    · cases valid
    rename_i sorted
    cases valid
    obtain ⟨known, complete⟩ := validateDependsOnDAG_ok sorted
    refine ⟨distinct, known, KahnSort.acc_of_sorted distinct ?_⟩
    rw [complete]
    exact (List.length_map _).symm
  · rename_i unused
    cases valid
    have none := usesDependsOn_eq_false (Bool.eq_false_iff.mpr unused)
    refine ⟨distinct, ?_, ?_⟩
    · intro s member d names
      rw [none s member] at names
      cases names
    · intro id _member
      constructor
      intro d names
      change d ∈ dependenciesOf stages id at names
      rw [dependenciesOf_eq_nil none] at names
      cases names

end MigrationPlatform.Batch
