/-
Kahn's topological sort: a queue of free nodes and a table of open in-degrees.

A node enters the queue when the last of its predecessors is taken from it. The
rules say what a sort has taken, in which order, and that a sort which takes
every node has found a graph without cycles.
-/

import Mathlib.Data.Fintype.Card
import Mathlib.Data.List.Nodup
import Mathlib.Data.List.Perm.Subperm
import Mathlib.Data.Set.Finite.List
import Mathlib.Logic.Relation

namespace KahnSort

variable {Node : Type*}

def Ordered (predecessors : Node → List Node) : List Node → Prop
  | [] => True
  | node :: older => (∀ other ∈ predecessors node, other ∈ older) ∧ Ordered predecessors older

theorem Ordered.acc {predecessors : Node → List Node} {taken : List Node}
    (ordered : Ordered predecessors taken) :
    ∀ node ∈ taken, Acc (fun other node => other ∈ predecessors node) node := by
  induction taken with
  | nil =>
      intro node member
      cases member
  | cons first older ih =>
      obtain ⟨behind, orderedOlder⟩ := ordered
      intro node member
      rcases List.mem_cons.mp member with same | older
      · subst same
        constructor
        intro other names
        exact ih orderedOlder other (behind other names)
      · exact ih orderedOlder node older

section Cycles

variable {relation : Node → Node → Prop}

theorem not_transGen_of_acc {node : Node} (acc : Acc relation node) :
    ¬Relation.TransGen relation node node := by
  have below := acc.transGen
  clear acc
  induction below with
  | intro node _below ih =>
      intro cycle
      exact ih node cycle cycle

theorem acc_of_acyclic {nodes : List Node}
    (closed : ∀ node ∈ nodes, ∀ other, relation other node → other ∈ nodes)
    (acyclic : ∀ node ∈ nodes, ¬Relation.TransGen relation node node) :
    ∀ node ∈ nodes, Acc relation node := by
  let Below : { node // node ∈ nodes } → { node // node ∈ nodes } → Prop :=
    fun other node => Relation.TransGen relation other.1 node.1
  have finite : Finite { node // node ∈ nodes } :=
    (List.finite_toSet nodes).to_subtype
  have transitive : IsTrans { node // node ∈ nodes } Below :=
    ⟨fun _ _ _ first second => first.trans second⟩
  have irreflexive : Std.Irrefl Below := ⟨fun node => acyclic node.1 node.2⟩
  have descends : WellFounded Below := Finite.wellFounded_of_trans_of_irrefl Below
  have each : ∀ node : { node // node ∈ nodes }, Acc relation node.1 := by
    intro node
    induction node using descends.induction with
    | _ node ih =>
        constructor
        intro other before
        exact ih ⟨other, closed node.1 node.2 other before⟩ (.single before)
  intro node member
  exact each ⟨node, member⟩

end Cycles

variable [DecidableEq Node]

/-- `taken` is newest first. -/
structure State (Node : Type*) where
  indegree : Node → Int
  queue : List Node
  taken : List Node

/-- The nodes that wait for `node`, once for each time they name it. -/
def children (nodes : List Node) (predecessors : Node → List Node) (node : Node) : List Node :=
  nodes.flatMap (fun child => ((predecessors child).filter (fun other => other = node)).map
    (fun _ => child))

def release (indegree : Node → Int) (queue : List Node) :
    List Node → (Node → Int) × List Node
  | [] => (indegree, queue)
  | child :: rest =>
      let lowered := Function.update indegree child (indegree child - 1)
      release lowered (if lowered child = 0 then queue ++ [child] else queue) rest

def initial (nodes : List Node) (predecessors : Node → List Node) : State Node :=
  { indegree := fun node => (predecessors node).length
    queue := nodes.filter (fun node => decide (((predecessors node).length : Int) = 0))
    taken := [] }

def State.take (nodes : List Node) (predecessors : Node → List Node) (state : State Node)
    (node : Node) (rest : List Node) : State Node :=
  let released := release state.indegree rest (children nodes predecessors node)
  { indegree := released.1, queue := released.2, taken := node :: state.taken }

/-- As many turns of the loop as the first argument says, or fewer when the
queue runs empty. -/
def drain (nodes : List Node) (predecessors : Node → List Node) :
    Nat → State Node → State Node
  | 0, state => state
  | turns + 1, state =>
      match state.queue with
      | [] => state
      | node :: rest => drain nodes predecessors turns (state.take nodes predecessors node rest)

def sort (nodes : List Node) (predecessors : Node → List Node) : State Node :=
  drain nodes predecessors nodes.length (initial nodes predecessors)

/-! ### Releasing the children of a node -/

section Release

theorem release_indegree (released : List Node) :
    ∀ (indegree : Node → Int) (queue : List Node) (node : Node),
      (release indegree queue released).1 node = indegree node - released.count node := by
  induction released with
  | nil =>
      intro indegree queue node
      change indegree node = indegree node - (0 : Nat)
      omega
  | cons child rest ih =>
      intro indegree queue node
      unfold release
      rw [ih]
      by_cases same : node = child
      · subst same
        rw [Function.update_self, List.count_cons_self]
        omega
      · rw [Function.update_of_ne same, List.count_cons_of_ne (fun equal => same equal.symm)]

theorem released_other {node child : Node} (different : node ≠ child) (rest : List Node)
    (indegree : Node → Int) (lowered : Int) :
    (node ∈ rest ∧ Function.update indegree child lowered node = rest.count node) ↔
      node ∈ child :: rest ∧ indegree node = (child :: rest).count node := by
  rw [Function.update_of_ne different, List.mem_cons, or_iff_right different,
    List.count_cons_of_ne (fun equal => different equal.symm)]

theorem release_queue (released : List Node) :
    ∀ (indegree : Node → Int) (queue : List Node),
      (∀ node ∈ released, (released.count node : Int) ≤ indegree node) →
      ∃ freed, (release indegree queue released).2 = queue ++ freed ∧ freed.Nodup ∧
        ∀ node, node ∈ freed ↔ node ∈ released ∧ indegree node = released.count node := by
  induction released with
  | nil =>
      intro indegree queue _enough
      refine ⟨[], (List.append_nil queue).symm, List.nodup_nil, ?_⟩
      intro node
      constructor
      · intro impossible
        cases impossible
      · intro impossible
        cases impossible.1
  | cons child rest ih =>
      intro indegree queue enough
      have here := enough child List.mem_cons_self
      rw [List.count_cons_self] at here
      have later : ∀ node ∈ rest, (rest.count node : Int) ≤
          Function.update indegree child (indegree child - 1) node := by
        intro node member
        by_cases same : node = child
        · subst same
          rw [Function.update_self]
          omega
        · have bound := enough node (List.mem_cons_of_mem child member)
          rw [List.count_cons_of_ne (fun equal => same equal.symm)] at bound
          rw [Function.update_of_ne same]
          exact bound
      unfold release
      by_cases free : Function.update indegree child (indegree child - 1) child = 0
      · simp only [free, if_true]
        rw [Function.update_self] at free
        obtain ⟨freed, queued, distinct, members⟩ := ih _ (queue ++ [child]) later
        have once : child ∉ rest := by
          intro member
          have counted := List.count_pos_iff.mpr member
          omega
        refine ⟨child :: freed, ?_, ?_, ?_⟩
        · rw [queued, List.append_assoc]
          rfl
        · apply List.nodup_cons.mpr
          constructor
          · intro member
            exact once ((members child).mp member).1
          · exact distinct
        · intro node
          by_cases same : node = child
          · subst same
            have absent := List.count_eq_zero.mpr once
            rw [List.count_cons_self]
            constructor
            · intro _member
              exact ⟨List.mem_cons_self, by omega⟩
            · intro _both
              exact List.mem_cons_self
          · rw [List.mem_cons, or_iff_right same, members]
            exact released_other same rest indegree _
      · simp only [free, if_false]
        rw [Function.update_self] at free
        obtain ⟨freed, queued, distinct, members⟩ := ih _ queue later
        refine ⟨freed, queued, distinct, ?_⟩
        intro node
        rw [members]
        by_cases same : node = child
        · subst same
          rw [Function.update_self, List.count_cons_self]
          constructor
          · rintro ⟨_, exact⟩
            constructor
            · exact List.mem_cons_self
            · omega
          · rintro ⟨_, exact⟩
            have positive : 0 < rest.count node := by omega
            exact ⟨List.count_pos_iff.mp positive, by omega⟩
        · exact released_other same rest indegree _

end Release

def openPredecessors (predecessors : Node → List Node) (taken : List Node) (node : Node) : Nat :=
  (predecessors node).countP (fun other => decide (other ∉ taken))

structure Sound (nodes : List Node) (predecessors : Node → List Node) (state : State Node) :
    Prop where
  distinct : (state.taken ++ state.queue).Nodup
  indegrees : ∀ node ∈ nodes,
    state.indegree node = openPredecessors predecessors state.taken node
  entered : ∀ node, node ∈ state.taken ++ state.queue ↔
    node ∈ nodes ∧ openPredecessors predecessors state.taken node = 0
  ordered : Ordered predecessors state.taken

section Taking

variable {nodes : List Node} {predecessors : Node → List Node}

theorem mem_children {node child : Node} :
    child ∈ children nodes predecessors node ↔ child ∈ nodes ∧ node ∈ predecessors child := by
  unfold children
  rw [List.mem_flatMap]
  constructor
  · rintro ⟨other, member, inside⟩
    obtain ⟨found, among, rfl⟩ := List.mem_map.mp inside
    rw [List.mem_filter] at among
    have same := of_decide_eq_true among.2
    subst same
    exact ⟨member, among.1⟩
  · rintro ⟨member, names⟩
    refine ⟨child, member, List.mem_map.mpr ⟨node, ?_, rfl⟩⟩
    exact List.mem_filter.mpr ⟨names, decide_eq_true rfl⟩

theorem count_children (distinct : nodes.Nodup) {node child : Node} (member : child ∈ nodes) :
    (children nodes predecessors node).count child = (predecessors child).count node := by
  unfold children
  induction nodes with
  | nil => cases member
  | cons first rest ih =>
      obtain ⟨fresh, distinctRest⟩ := List.nodup_cons.mp distinct
      rw [List.flatMap_cons, List.count_append]
      have own : (((predecessors first).filter (fun other => other = node)).map
          (fun _ => first)).count child =
            if child = first then (predecessors first).count node else 0 := by
        by_cases same : child = first
        · subst same
          rw [if_pos rfl, List.map_const', List.count_replicate_self,
            List.count_eq_length_filter]
          congr 1
        · rw [if_neg same]
          apply List.count_eq_zero.mpr
          intro inside
          obtain ⟨_, _, equal⟩ := List.mem_map.mp inside
          exact same equal.symm
      rw [own]
      rcases List.mem_cons.mp member with same | later
      · subst same
        have absent : (rest.flatMap (fun other =>
            ((predecessors other).filter (fun found => found = node)).map
              (fun _ => other))).count child = 0 := by
          apply List.count_eq_zero.mpr
          intro inside
          exact fresh (mem_children.mp inside).1
        rw [if_pos rfl, absent, Nat.add_zero]
      · have different : child ≠ first := by
          intro equal
          subst equal
          exact fresh later
        rw [if_neg different, ih distinctRest later, Nat.zero_add]

theorem openPredecessors_cons {taken : List Node} {node : Node} (fresh : node ∉ taken)
    (child : Node) :
    openPredecessors predecessors (node :: taken) child + (predecessors child).count node =
      openPredecessors predecessors taken child := by
  unfold openPredecessors
  induction predecessors child with
  | nil => rfl
  | cons first rest ih =>
      rw [List.countP_cons, List.countP_cons, List.count_cons]
      by_cases same : first = node
      · subst same
        have inside : first ∈ first :: taken := List.mem_cons_self
        simp only [inside, fresh, not_true_eq_false, not_false_eq_true, decide_false, decide_true,
          Bool.false_eq_true, if_false, if_true, beq_self_eq_true]
        omega
      · have different : (first == node) = false := beq_eq_false_iff_ne.mpr same
        have equally : (first ∉ node :: taken) ↔ first ∉ taken := by
          rw [List.mem_cons]
          constructor
          · intro outside inside
            exact outside (.inr inside)
          · intro outside inside
            rcases inside with equal | inside
            · exact same equal
            · exact outside inside
        simp only [equally, different, Bool.false_eq_true, if_false]
        omega

theorem initial_sound (distinct : nodes.Nodup) :
    Sound nodes predecessors (initial nodes predecessors) := by
  have allOpen : ∀ node, openPredecessors predecessors [] node = (predecessors node).length := by
    intro node
    unfold openPredecessors
    apply List.countP_eq_length.mpr
    intro other _member
    exact decide_eq_true List.not_mem_nil
  constructor
  · exact distinct.filter _
  · intro node _member
    change ((predecessors node).length : Int) = openPredecessors predecessors [] node
    rw [allOpen]
  · intro node
    change node ∈ nodes.filter _ ↔ node ∈ nodes ∧ openPredecessors predecessors [] node = 0
    rw [List.mem_filter, allOpen, decide_eq_true_iff]
    constructor
    · rintro ⟨member, none⟩
      exact ⟨member, by omega⟩
    · rintro ⟨member, none⟩
      exact ⟨member, by omega⟩
  · trivial

theorem take_queue (distinct : nodes.Nodup) {state : State Node} {node : Node}
    (rest : List Node) (sound : Sound nodes predecessors state) (fresh : node ∉ state.taken) :
    ∃ freed, (state.take nodes predecessors node rest).queue = rest ++ freed ∧ freed.Nodup ∧
      ∀ child, child ∈ freed ↔ child ∈ nodes ∧
        openPredecessors predecessors state.taken child ≠ 0 ∧
        openPredecessors predecessors (node :: state.taken) child = 0 := by
  have closes := fun child => @openPredecessors_cons _ _ predecessors state.taken node fresh child
  have enough : ∀ child ∈ children nodes predecessors node,
      ((children nodes predecessors node).count child : Int) ≤ state.indegree child := by
    intro child member
    obtain ⟨known, _⟩ := mem_children.mp member
    rw [count_children distinct known, sound.indegrees child known]
    have split := closes child
    omega
  obtain ⟨freed, added, freedDistinct, members⟩ :=
    release_queue (children nodes predecessors node) state.indegree rest enough
  refine ⟨freed, added, freedDistinct, ?_⟩
  intro child
  have split := closes child
  rw [members]
  constructor
  · rintro ⟨among, last⟩
    obtain ⟨known, names⟩ := mem_children.mp among
    have positive := List.count_pos_iff.mpr names
    rw [count_children distinct known, sound.indegrees child known] at last
    exact ⟨known, by omega, by omega⟩
  · rintro ⟨known, wasOpen, closed⟩
    have positive : 0 < (predecessors child).count node := by omega
    refine ⟨mem_children.mpr ⟨known, List.count_pos_iff.mp positive⟩, ?_⟩
    rw [count_children distinct known, sound.indegrees child known]
    omega

theorem take_sound (distinct : nodes.Nodup) {state : State Node} {node : Node} {rest : List Node}
    (sound : Sound nodes predecessors state) (queued : state.queue = node :: rest) :
    Sound nodes predecessors (state.take nodes predecessors node rest) := by
  have before := sound.distinct
  rw [queued] at before
  obtain ⟨takenDistinct, queueDistinct, apart⟩ := List.nodup_append.mp before
  obtain ⟨notQueued, restDistinct⟩ := List.nodup_cons.mp queueDistinct
  have fresh : node ∉ state.taken := fun member => apart node member node List.mem_cons_self rfl
  have closes := fun child => @openPredecessors_cons _ _ predecessors state.taken node fresh child
  have entered := sound.entered
  rw [queued] at entered
  obtain ⟨inside, ready⟩ := (entered node).mp (List.mem_append_right _ List.mem_cons_self)
  obtain ⟨freed, queue, freedDistinct, members⟩ := take_queue distinct rest sound fresh
  have taken : (state.take nodes predecessors node rest).taken = node :: state.taken := rfl
  -- a freed child had an open predecessor before, so it was not in the queue
  have freedNew : ∀ child ∈ freed, child ∉ state.taken ++ node :: rest := by
    intro child member old
    exact ((members child).mp member).2.1 ((entered child).mp old).2
  constructor
  · rw [queue, taken]
    apply List.nodup_append.mpr
    refine ⟨List.nodup_cons.mpr ⟨fresh, takenDistinct⟩, ?_, ?_⟩
    · apply List.nodup_append.mpr
      refine ⟨restDistinct, freedDistinct, ?_⟩
      intro other inRest child inFreed equal
      subst equal
      apply freedNew other inFreed
      exact List.mem_append_right _ (List.mem_cons_of_mem _ inRest)
    · intro other inTaken child inQueue equal
      subst equal
      rcases List.mem_append.mp inQueue with inRest | inFreed
      · rcases List.mem_cons.mp inTaken with same | older
        · subst same
          exact notQueued inRest
        · exact apart other older other (List.mem_cons_of_mem _ inRest) rfl
      · apply freedNew other inFreed
        rcases List.mem_cons.mp inTaken with same | older
        · subst same
          exact List.mem_append_right _ List.mem_cons_self
        · exact List.mem_append_left _ older
  · intro child known
    rw [taken]
    change (release state.indegree rest (children nodes predecessors node)).1 child = _
    rw [release_indegree, count_children distinct known, sound.indegrees child known]
    have split := closes child
    omega
  · intro child
    rw [queue, taken]
    have split := closes child
    -- what was entered before is still closed, and what is closed now was so before or is freed
    have regroup : child ∈ (node :: state.taken) ++ (rest ++ freed) ↔
        child ∈ state.taken ++ node :: rest ∨ child ∈ freed := by
      simp only [List.mem_append, List.mem_cons]
      tauto
    rw [regroup, entered child, members child]
    constructor
    · rintro (⟨known, closed⟩ | ⟨known, _, closed⟩)
      · exact ⟨known, by omega⟩
      · exact ⟨known, closed⟩
    · rintro ⟨known, closed⟩
      by_cases wasClosed : openPredecessors predecessors state.taken child = 0
      · exact .inl ⟨known, wasClosed⟩
      · exact .inr ⟨known, wasClosed, closed⟩
  · rw [taken]
    refine ⟨?_, sound.ordered⟩
    intro other names
    have closed := List.countP_eq_zero.mp ready other names
    exact Decidable.not_not.mp (fun outside => closed (decide_eq_true outside))

theorem drain_sound (distinct : nodes.Nodup) (turns : Nat) :
    ∀ state : State Node, Sound nodes predecessors state →
      Sound nodes predecessors (drain nodes predecessors turns state) := by
  induction turns with
  | zero =>
      intro state sound
      exact sound
  | succ turns ih =>
      intro state sound
      unfold drain
      cases queued : state.queue with
      | nil => exact sound
      | cons node rest => exact ih _ (take_sound distinct sound queued)

theorem sort_sound (distinct : nodes.Nodup) :
    Sound nodes predecessors (sort nodes predecessors) :=
  drain_sound distinct nodes.length _ (initial_sound distinct)

theorem Sound.length_le {state : State Node} (sound : Sound nodes predecessors state) :
    state.taken.length + state.queue.length ≤ nodes.length := by
  rw [← List.length_append]
  apply List.Subperm.length_le
  apply sound.distinct.subperm
  intro node member
  exact ((sound.entered node).mp member).1

theorem drain_queue (distinct : nodes.Nodup) (turns : Nat) :
    ∀ state : State Node, Sound nodes predecessors state →
      nodes.length ≤ state.taken.length + turns →
      (drain nodes predecessors turns state).queue = [] := by
  induction turns with
  | zero =>
      intro state sound enough
      have bound := sound.length_le
      apply List.length_eq_zero_iff.mp
      change state.queue.length = 0
      omega
  | succ turns ih =>
      intro state sound enough
      unfold drain
      cases queued : state.queue with
      | nil => exact queued
      | cons node rest =>
          apply ih _ (take_sound distinct sound queued)
          change nodes.length ≤ (node :: state.taken).length + turns
          rw [List.length_cons]
          omega

theorem sort_queue (distinct : nodes.Nodup) : (sort nodes predecessors).queue = [] :=
  drain_queue distinct nodes.length _ (initial_sound distinct) (by omega)

theorem acc_of_sorted (distinct : nodes.Nodup)
    (all : (sort nodes predecessors).taken.length = nodes.length) :
    ∀ node ∈ nodes, Acc (fun other node => other ∈ predecessors node) node := by
  have sound := @sort_sound _ _ nodes predecessors distinct
  have takenDistinct := (List.nodup_append.mp sound.distinct).1
  have within : (sort nodes predecessors).taken ⊆ nodes := by
    intro node member
    exact ((sound.entered node).mp (List.mem_append_left _ member)).1
  have perm := (takenDistinct.subperm within).perm_of_length_le (Nat.le_of_eq all.symm)
  intro node member
  exact sound.ordered.acc node (perm.mem_iff.mpr member)

theorem sorted_of_acc (distinct : nodes.Nodup)
    (closed : ∀ node ∈ nodes, ∀ other ∈ predecessors node, other ∈ nodes)
    (acc : ∀ node ∈ nodes, Acc (fun other node => other ∈ predecessors node) node) :
    (sort nodes predecessors).taken.length = nodes.length := by
  have sound := @sort_sound _ _ nodes predecessors distinct
  have drained := @sort_queue _ _ nodes predecessors distinct
  have taken : ∀ node ∈ nodes, node ∈ (sort nodes predecessors).taken := by
    intro node member
    induction acc node member with
    | intro node _below ih =>
        have none : openPredecessors predecessors (sort nodes predecessors).taken node = 0 := by
          apply List.countP_eq_zero.mpr
          intro other names
          rw [decide_eq_true_iff, not_not]
          exact ih other names (closed node member other names)
        have entered := (sound.entered node).mpr ⟨member, none⟩
        rw [drained, List.append_nil] at entered
        exact entered
  apply Nat.le_antisymm
  · have bound := sound.length_le
    omega
  · exact (distinct.subperm taken).length_le

theorem sorted_iff (distinct : nodes.Nodup)
    (closed : ∀ node ∈ nodes, ∀ other ∈ predecessors node, other ∈ nodes) :
    (sort nodes predecessors).taken.length = nodes.length ↔
      ∀ node ∈ nodes,
        ¬Relation.TransGen (fun other node => other ∈ predecessors node) node node := by
  constructor
  · intro all node member
    exact not_transGen_of_acc (acc_of_sorted distinct all node member)
  · intro acyclic
    exact sorted_of_acc distinct closed (acc_of_acyclic closed acyclic)

end Taking

end KahnSort
