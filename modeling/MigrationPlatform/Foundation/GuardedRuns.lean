/-
Finite runs of an executable transition function, with a guard on the steps.

A step function may refuse an action in a state. A run applies a list of
actions in order and fails when one of them is refused. A guard is a condition
on a state and the action taken there; it is an assumption about the
environment and never changes what a step does.
-/

import Mathlib.Logic.Basic

namespace GuardedRuns

variable {State Action : Type*}

def run (step : State → Action → Option State) : State → List Action → Option State
  | state, [] => some state
  | state, action :: rest =>
      match step state action with
      | none => none
      | some next => run step next rest

/-- Every action of the run is taken in a state where the guard allows it. -/
def Obeys (step : State → Action → Option State) (guard : State → Action → Prop) :
    State → List Action → Prop
  | _, [] => True
  | state, action :: rest =>
      guard state action ∧
        match step state action with
        | none => True
        | some next => Obeys step guard next rest

instance Obeys.decidable (step : State → Action → Option State)
    (guard : State → Action → Prop) [∀ state action, Decidable (guard state action)] :
    (state : State) → (actions : List Action) → Decidable (Obeys step guard state actions)
  | _, [] => isTrue trivial
  | state, action :: rest =>
      match found : step state action with
      | none => decidable_of_iff (guard state action) (by simp [Obeys, found])
      | some next =>
          letI := Obeys.decidable step guard next rest
          decidable_of_iff (guard state action ∧ Obeys step guard next rest)
            (by simp [Obeys, found])

section Rules

variable {step : State → Action → Option State}
variable {guard : State → Action → Prop}

theorem run_cons_eq_some {state final : State} {action : Action} {rest : List Action}
    (ran : run step state (action :: rest) = some final) :
    ∃ next, step state action = some next ∧ run step next rest = some final := by
  simp only [run] at ran
  split at ran
  · cases ran
  · rename_i next taken
    exact ⟨next, taken, ran⟩

theorem Obeys.tail {state next : State} {action : Action} {rest : List Action}
    (obeys : Obeys step guard state (action :: rest)) (taken : step state action = some next) :
    Obeys step guard next rest := by
  have later := obeys.2
  rw [taken] at later
  exact later

theorem invariant_of_obeys {Invariant : State → Prop}
    (preserved : ∀ state action next, guard state action → Invariant state →
      step state action = some next → Invariant next) :
    ∀ (actions : List Action) (state final : State), Invariant state →
      Obeys step guard state actions → run step state actions = some final →
      Invariant final := by
  intro actions
  induction actions with
  | nil =>
      intro state final holds _obeys ran
      cases ran
      exact holds
  | cons action rest ih =>
      intro state final holds obeys ran
      obtain ⟨next, taken, ranRest⟩ := run_cons_eq_some ran
      exact ih next final (preserved state action next obeys.1 holds taken)
        (obeys.tail taken) ranRest

theorem obeys_of_forall {actions : List Action}
    (allowed : ∀ action ∈ actions, ∀ state, guard state action) (state : State) :
    Obeys step guard state actions := by
  induction actions generalizing state with
  | nil => trivial
  | cons action rest ih =>
      refine ⟨allowed action List.mem_cons_self state, ?_⟩
      split
      · trivial
      · exact ih (fun later member => allowed later (List.mem_cons_of_mem action member)) _

theorem obeys_true (state : State) (actions : List Action) :
    Obeys step (fun _ _ => True) state actions :=
  obeys_of_forall (fun _ _ _ => trivial) state

theorem obeys_iff_forall {actions : List Action} {state : State} :
    Obeys step guard state actions ↔
      ∀ early action late reached, actions = early ++ action :: late →
        run step state early = some reached → guard reached action := by
  induction actions generalizing state with
  | nil =>
      refine iff_of_true trivial ?_
      intro early action late reached split
      cases early <;> cases split
  | cons first rest ih =>
      constructor
      · intro obeys early action late reached split ranEarly
        cases early with
        | nil =>
            cases split
            cases ranEarly
            exact obeys.1
        | cons head early =>
            obtain ⟨same, splitRest⟩ := List.cons.inj split
            subst same
            obtain ⟨next, taken, ranRest⟩ := run_cons_eq_some ranEarly
            exact ih.mp (obeys.tail taken) early action late reached splitRest ranRest
      · intro everywhere
        refine ⟨everywhere [] first rest state rfl rfl, ?_⟩
        split
        · trivial
        · rename_i next taken
          apply ih.mpr
          intro early action late reached splitRest ranRest
          apply everywhere (first :: early) action late reached
          · rw [splitRest, List.cons_append]
          · simp only [run, taken]
            exact ranRest

theorem Obeys.left {early late : List Action} {state : State}
    (obeys : Obeys step guard state (early ++ late)) : Obeys step guard state early := by
  rw [obeys_iff_forall] at obeys ⊢
  intro before action after reached split ran
  apply obeys before action (after ++ late) reached _ ran
  rw [split, List.append_assoc, List.cons_append]

theorem Obeys.right {early late : List Action} {state reached : State}
    (obeys : Obeys step guard state (early ++ late)) (ran : run step state early = some reached) :
    Obeys step guard reached late := by
  induction early generalizing state with
  | nil =>
      cases ran
      exact obeys
  | cons action rest ih =>
      obtain ⟨next, taken, ranRest⟩ := run_cons_eq_some ran
      exact ih (obeys.tail taken) ranRest

theorem invariant_of_run {Invariant : State → Prop}
    (preserved : ∀ state action next, Invariant state →
      step state action = some next → Invariant next)
    (actions : List Action) (state final : State) (holds : Invariant state)
    (ran : run step state actions = some final) : Invariant final := by
  refine invariant_of_obeys ?_ actions state final holds (obeys_true state actions) ran
  intro before action next _allowed
  exact preserved before action next

/-- Where a condition amounts to the guard in every state that guarded runs
reach, the runs that meet the one are the runs that meet the other. -/
theorem Obeys.iff_of_invariant {Invariant : State → Prop} {condition : State → Action → Prop}
    (preserved : ∀ state action next, guard state action → Invariant state →
      step state action = some next → Invariant next)
    (same : ∀ state action, Invariant state → (condition state action ↔ guard state action)) :
    ∀ (actions : List Action) (state : State), Invariant state →
      (Obeys step condition state actions ↔ Obeys step guard state actions) := by
  intro actions
  induction actions with
  | nil =>
      intro state _holds
      exact Iff.rfl
  | cons action rest ih =>
      intro state holds
      unfold Obeys
      rw [same state action holds]
      apply and_congr_right
      intro allowed
      cases taken : step state action with
      | none => exact Iff.rfl
      | some next => exact ih next (preserved state action next allowed holds taken)

/-- Where the guard is exactly what a step needs to keep a property, the runs
that have the property in every state they reach are the guarded ones. -/
theorem throughout_iff_obeys {Property : State → Prop}
    (exact : ∀ state action next, Property state → step state action = some next →
      (Property next ↔ guard state action)) :
    ∀ (actions : List Action) (state final : State), Property state →
      run step state actions = some final →
      ((∀ early late reached, actions = early ++ late → run step state early = some reached →
        Property reached) ↔ Obeys step guard state actions) := by
  intro actions
  induction actions with
  | nil =>
      intro state final holds _ran
      constructor
      · intro _throughout
        trivial
      · intro _obeys early late reached split ranEarly
        have empty : early = [] := (List.append_eq_nil_iff.mp split.symm).1
        subst empty
        cases ranEarly
        exact holds
  | cons action rest ih =>
      intro state final holds ran
      obtain ⟨next, taken, ranRest⟩ := run_cons_eq_some ran
      have one : run step state [action] = some next := by
        simp only [run, taken]
      constructor
      · intro throughout
        have holdsNext := throughout [action] rest next rfl one
        refine ⟨(exact state action next holds taken).mp holdsNext, ?_⟩
        rw [taken]
        apply (ih next final holdsNext ranRest).mp
        intro early late reached split ranEarly
        apply throughout (action :: early) late reached
        · rw [split]
          rfl
        · simp only [run, taken]
          exact ranEarly
      · intro obeys early late reached split ranEarly
        have holdsNext := (exact state action next holds taken).mpr obeys.1
        cases early with
        | nil =>
            cases ranEarly
            exact holds
        | cons first early =>
            obtain ⟨same, splitRest⟩ := List.cons.inj split
            subst same
            simp only [run, taken] at ranEarly
            exact (ih next final holdsNext ranRest).mpr (obeys.tail taken) early late reached
              splitRest ranEarly

end Rules

end GuardedRuns
