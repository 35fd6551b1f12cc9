/-
What every interleaving of attempts keeps, whatever the delivery mode, the
payloads and the overrides.

Two facts carry the rest of the development. An attempt that the ledger records
as pending or failed had no effect at the destination, since its own answer
decided that record. And a row names a lease holder exactly while it is being sent.
-/

import MigrationPlatform.Delivery.AttemptProtocol

namespace MigrationPlatform.Delivery

variable {plan : AttemptId → AttemptPlan} {w next : World} {action : Action}

def Event.attempt : Event → AttemptId
  | .begun attempt _ _ => attempt
  | .lookedUp attempt _ => attempt
  | .wrote attempt _ => attempt
  | .answered attempt _ => attempt
  | .recorded attempt _ => attempt

variable {attempt : AttemptId} {event : Event}

theorem mem_grantees_other (history : List Event) (other : event.attempt ≠ attempt) :
    attempt ∈ grantees (event :: history) ↔ attempt ∈ grantees history := by
  cases event with
  | begun author now kind =>
      have different : attempt ≠ author := fun same => other same.symm
      cases granted : kind.grants <;> simp [grantees, granted, different]
  | _ => exact Iff.rfl

theorem mem_writers_other (history : List Event) (other : event.attempt ≠ attempt) :
    attempt ∈ writers (event :: history) ↔ attempt ∈ writers history := by
  cases event with
  | wrote author time =>
      have different : attempt ≠ author := fun same => other same.symm
      simp [writers, different]
  | _ => exact Iff.rfl

private theorem answersOf_other (history : List Event) (other : event.attempt ≠ attempt) :
    answersOf attempt (event :: history) = answersOf attempt history := by
  cases event with
  | answered author result => exact if_neg other
  | _ => rfl

theorem recordsOf_other (history : List Event) (other : event.attempt ≠ attempt) :
    recordsOf attempt (event :: history) = recordsOf attempt history := by
  cases event with
  | recorded author input => exact if_neg other
  | _ => rfl

theorem effectMayExist_other (history : List Event) (other : event.attempt ≠ attempt) :
    EffectMayExist (event :: history) attempt ↔ EffectMayExist history attempt := by
  unfold EffectMayExist
  rw [mem_writers_other history other, answersOf_other history other]

def PhaseTrace (mode : DeliveryMode) (history : List Event) (attempt : AttemptId) : Phase → Prop
  | .ready =>
      attempt ∉ grantees history ∧ attempt ∉ writers history ∧ recordsOf attempt history = []
  | .lookingUp _ =>
      attempt ∈ grantees history ∧ attempt ∉ writers history ∧ recordsOf attempt history = []
  | .sending _ =>
      attempt ∈ grantees history ∧ attempt ∉ writers history ∧ recordsOf attempt history = []
  | .inFlight => attempt ∈ grantees history ∧ recordsOf attempt history = []
  | .finishing completion _ =>
      attempt ∈ grantees history ∧
        (∀ f ∈ recordsOf attempt history, f = completion.finishInput mode) ∧
        (completion.definite = true → ¬EffectMayExist history attempt)
  | .returned _ _ => True
  | .crashed => True

variable {history : List Event} {phase : Phase}

theorem phaseTrace_other {mode : DeliveryMode} (other : event.attempt ≠ attempt)
    (trace : PhaseTrace mode history attempt phase) :
    PhaseTrace mode (event :: history) attempt phase := by
  cases phase with
  | returned output err => trivial
  | crashed => trivial
  | finishing completion tries =>
      obtain ⟨granted, records, harmless⟩ := trace
      refine ⟨(mem_grantees_other history other).mpr granted, ?_, ?_⟩
      · rw [recordsOf_other history other]
        exact records
      · rw [effectMayExist_other history other]
        exact harmless
  | inFlight =>
      unfold PhaseTrace at trace ⊢
      rwa [mem_grantees_other history other, recordsOf_other history other]
  | ready =>
      unfold PhaseTrace at trace ⊢
      rwa [mem_grantees_other history other, mem_writers_other history other,
        recordsOf_other history other]
  | lookingUp deadline =>
      unfold PhaseTrace at trace ⊢
      rwa [mem_grantees_other history other, mem_writers_other history other,
        recordsOf_other history other]
  | sending deadline =>
      unfold PhaseTrace at trace ⊢
      rwa [mem_grantees_other history other, mem_writers_other history other,
        recordsOf_other history other]

structure RecordsSound (history : List Event) (attempt : AttemptId) : Prop where
  agree : ∀ f ∈ recordsOf attempt history, ∀ g ∈ recordsOf attempt history, f = g
  harmless : ∀ f ∈ recordsOf attempt history, f.state.definite = true →
    ¬EffectMayExist history attempt

private theorem recordsSound_other
    (other : event.attempt ≠ attempt) (sound : RecordsSound history attempt) :
    RecordsSound (event :: history) attempt := by
  constructor
  · rw [recordsOf_other history other]
    exact sound.agree
  · rw [recordsOf_other history other, effectMayExist_other history other]
    exact sound.harmless

theorem RecordsSound.of_empty
    (empty : recordsOf attempt history = []) : RecordsSound history attempt := by
  constructor <;> rw [empty] <;> simp

structure Traced (plan : AttemptId → AttemptPlan) (w : World) : Prop where
  phases : ∀ attempt, PhaseTrace (plan attempt).intent.mode w.history attempt (w.phase attempt)
  records : ∀ attempt, RecordsSound w.history attempt

theorem Traced.start (row : Option OperationRow) (clock : Time) :
    Traced plan (.start row clock) := by
  constructor
  · intro attempt
    exact ⟨List.not_mem_nil, List.not_mem_nil, rfl⟩
  · intro attempt
    exact RecordsSound.of_empty rfl

theorem Traced.enter (traced : Traced plan w)
    (trace : PhaseTrace (plan attempt).intent.mode w.history attempt phase) :
    Traced plan (w.enter attempt phase) := by
  constructor
  · intro other
    by_cases same : other = attempt
    · subst other
      simpa [World.enter] using trace
    · simpa [World.enter, Function.update_of_ne same] using traced.phases other
  · exact traced.records

/-- An attempt that moves to another phase and notes an event of its own. The
row may change as well; the traces do not read it. -/
theorem Traced.act (traced : Traced plan w)
    {row : Option OperationRow} (own : event.attempt = attempt)
    (trace : PhaseTrace (plan attempt).intent.mode (event :: w.history) attempt phase)
    (sound : RecordsSound (event :: w.history) attempt) :
    Traced plan (({ w with row := row }.note event).enter attempt phase) := by
  constructor
  · intro other
    by_cases same : other = attempt
    · subst other
      simpa [World.enter, World.note] using trace
    · have foreign : event.attempt ≠ other := fun equal => same (equal.symm.trans own)
      simpa [World.enter, World.note, Function.update_of_ne same] using
        phaseTrace_other foreign (traced.phases other)
  · intro other
    by_cases same : other = attempt
    · subst other
      exact sound
    · have foreign : event.attempt ≠ other := fun equal => same (equal.symm.trans own)
      exact recordsSound_other foreign (traced.records other)

theorem traced_phase (traced : Traced plan w) (found : w.phase attempt = phase) :
    PhaseTrace (plan attempt).intent.mode w.history attempt phase := by
  have trace := traced.phases attempt
  rwa [found] at trace

private theorem mem_grantees_begun {now : Time}
    {kind : DecisionKind} (granted : kind.grants = true) :
    attempt ∈ grantees (.begun attempt now kind :: history) := by
  rw [grantees, if_pos granted]
  exact List.mem_cons_self

private theorem traced_begun (traced : Traced plan w) {now : Time}
    (ready : w.phase attempt = .ready)
    (entered : phase = afterBegin now (beginRow w.row ((plan attempt).beginInput attempt) now).1 ∨
      ∃ message, phase = beginFailed message) :
    Traced plan ((w.commitBegin ((plan attempt).beginInput attempt) now).enter attempt phase) := by
  obtain ⟨_, unwritten, unrecorded⟩ := traced_phase traced ready
  refine traced.act rfl ?_ (RecordsSound.of_empty unrecorded)
  rcases entered with moved | ⟨message, failed⟩
  · rw [moved]
    unfold afterBegin
    cases decided : (beginRow w.row ((plan attempt).beginInput attempt) now).1.decision.kind with
    | busy => trivial
    | replay => trivial
    | unresolved => trivial
    | send =>
        refine ⟨mem_grantees_begun ?_, unwritten, unrecorded⟩
        rw [beginKind, decided]
        rfl
    | lookupThenSend =>
        refine ⟨mem_grantees_begun ?_, unwritten, unrecorded⟩
        rw [beginKind, decided]
        rfl
  · rw [failed]
    trivial

private theorem traced_missed (traced : Traced plan w) {completion : Completion} {tries : Nat}
    (found : w.phase attempt = .finishing completion tries)
    (missed : MissedPhase completion phase) :
    PhaseTrace (plan attempt).intent.mode w.history attempt phase := by
  rcases missed with ⟨later, rfl⟩ | ⟨output, err, rfl⟩
  · obtain ⟨granted, records, harmless⟩ := traced_phase traced found
    exact ⟨granted, records, harmless⟩
  · trivial

private theorem traced_recorded (traced : Traced plan w)
    {completion : Completion} {tries : Nat} {row : OperationRow}
    (found : w.phase attempt = .finishing completion tries)
    (closing : ClosingPhase (plan attempt).intent.mode completion phase) :
    Traced plan (((w.store row).note
      (.recorded attempt (completion.finishInput (plan attempt).intent.mode))).enter
        attempt phase) := by
  obtain ⟨granted, records, harmless⟩ := traced_phase traced found
  let f := completion.finishInput (plan attempt).intent.mode
  have all : ∀ g ∈ recordsOf attempt (.recorded attempt f :: w.history), g = f := by
    intro g member
    rw [recordsOf, if_pos rfl] at member
    rcases List.mem_cons.mp member with same | older
    · exact same
    · exact records g older
  refine traced.act rfl ?_ ⟨?_, ?_⟩
  · rcases closing with rfl | ⟨later, rfl⟩ | ⟨output, err, rfl⟩
    · trivial
    · exact ⟨granted, all, harmless⟩
    · trivial
  · intro g first other second
    rw [all g first, all other second]
  · intro g member settled
    rw [all g member, Completion.finishInput_definite] at settled
    exact harmless settled

theorem traced_step (traced : Traced plan w) (taken : Transition plan w action next) :
    Traced plan next := by
  cases taken with
  | tick elapsed => exact ⟨traced.phases, traced.records⟩
  | beginAborted attempt now message ready => exact traced.enter trivial
  | begun attempt now tx phase ready past entered => exact traced_begun traced ready entered
  | lookedUp attempt reply deadline found =>
      obtain ⟨granted, unwritten, unrecorded⟩ := traced_phase traced found
      refine traced.act rfl ?_ (RecordsSound.of_empty unrecorded)
      have empty : ∀ f ∈ recordsOf attempt w.history,
          ∀ completion : Completion, f = completion.finishInput (plan attempt).intent.mode := by
        rw [unrecorded]
        intro f member
        cases member
      cases lookupEffect reply with
      | absent => exact ⟨granted, unwritten, unrecorded⟩
      | failed message =>
          exact ⟨granted, fun f member => empty f member _, fun impossible => nomatch impossible⟩
      | found status body =>
          exact ⟨granted, fun f member => empty f member _, fun impossible => nomatch impossible⟩
  | wrote attempt deadline found =>
      obtain ⟨granted, _, unrecorded⟩ := traced_phase traced found
      exact traced.act rfl ⟨granted, unrecorded⟩ (RecordsSound.of_empty unrecorded)
  | neverWritten attempt message deadline found =>
      obtain ⟨granted, unwritten, unrecorded⟩ := traced_phase traced found
      refine traced.enter ⟨granted, ?_, fun _ effect => unwritten effect.1⟩
      rw [unrecorded]
      intro f member
      cases member
  | answered attempt answer found =>
      obtain ⟨granted, unrecorded⟩ := traced_phase traced found
      refine traced.act rfl ⟨granted, ?_, ?_⟩ (RecordsSound.of_empty unrecorded)
      · intro f member
        change f ∈ recordsOf attempt w.history at member
        rw [unrecorded] at member
        cases member
      · -- the answer itself is the refusal that rules the effect out
        intro refused effect
        have kept := effect.2 answer.result (by simp [answersOf])
        rw [refused] at kept
        cases kept
  | recorded attempt tx completion tries row phase found stored holder closing =>
      exact traced_recorded traced found closing
  | finishMissed attempt tx completion tries phase found missed =>
      exact traced.enter (traced_missed traced found missed)
  | abandoned attempt message completion tries phase found missed =>
      exact traced.enter (traced_missed traced found missed)
  | crashed attempt => exact traced.enter trivial

theorem Traced.unsettled_of_effect (traced : Traced plan w)
    (granted : attempt ∈ grantees w.history) (effect : EffectMayExist w.history attempt) :
    Unsettled w.history attempt := by
  refine ⟨granted, ?_⟩
  intro f member
  cases settled : f.state.definite with
  | false => rfl
  | true => exact False.elim ((traced.records attempt).harmless f member settled effect)

/-! ### Writers were granted, once -/

structure WritersSound (w : World) : Prop where
  granted : ∀ attempt ∈ writers w.history, attempt ∈ grantees w.history
  once : (writers w.history).Nodup

theorem grantees_mono (event : Event)
    (granted : attempt ∈ grantees history) : attempt ∈ grantees (event :: history) := by
  cases event with
  | begun author now kind =>
      cases grants : kind.grants <;> simp [grantees, grants, granted]
  | _ => exact granted

theorem writersSound_step (traced : Traced plan w) (sound : WritersSound w)
    (taken : Transition plan w action next) : WritersSound next := by
  cases taken with
  | wrote attempt deadline found =>
      obtain ⟨granted, unwritten, _⟩ := traced_phase traced found
      constructor
      · intro other member
        rcases List.mem_cons.mp member with same | older
        · rw [same]
          exact granted
        · exact sound.granted other older
      · exact List.nodup_cons.mpr ⟨unwritten, sound.once⟩
  | begun attempt now tx phase ready past entered =>
      exact ⟨fun other member => grantees_mono _ (sound.granted other member), sound.once⟩
  | _ => exact ⟨sound.granted, sound.once⟩

def ClosesSound (w : World) : Prop :=
  ∀ attempt completion tries, w.phase attempt = .finishing completion tries → completion.Sound

/-- Every attempt that is about to close does so with a possible completion. -/
def Closes (Possible : Completion → Prop) (w : World) : Prop :=
  ∀ attempt completion tries, w.phase attempt = .finishing completion tries → Possible completion

theorem Closes.enter {Possible : Completion → Prop} (closes : Closes Possible w)
    (own : ∀ completion tries, phase = .finishing completion tries → Possible completion)
    {row : Option OperationRow} :
    Closes Possible { clock := w.clock, row := row
                      phase := Function.update w.phase attempt phase, history := history } := by
  intro other completion tries found
  by_cases same : other = attempt
  · subst other
    simp only [Function.update_self] at found
    exact own completion tries found
  · simp only [Function.update_of_ne same] at found
    exact closes other completion tries found

private theorem possible_of_missed {Possible : Completion → Prop} {branch : Completion}
    (possible : Possible branch) (missed : MissedPhase branch phase) :
    ∀ completion tries, phase = .finishing completion tries → Possible completion := by
  intro completion tries found
  rcases missed with ⟨later, rfl⟩ | ⟨output, err, rfl⟩
  · cases found
    exact possible
  · cases found

private theorem afterBegin_ne_finishing (now : Time) (result : BeginResult)
    (completion : Completion) (tries : Nat) :
    afterBegin now result ≠ .finishing completion tries := by
  unfold afterBegin
  split <;> exact fun impossible => nomatch impossible

theorem Closes.step {Possible : Completion → Prop} (closes : Closes Possible w)
    (looked : ∀ attempt reply, action = .lookup attempt reply → ∀ deadline completion tries,
      afterLookup deadline (lookupEffect reply) = .finishing completion tries → Possible completion)
    (unsent : ∀ message, Possible (classify (neverWrittenResult message)))
    (sent : ∀ attempt answer, action = .answer attempt answer → Possible (classify answer.result))
    (taken : Transition plan w action next) : Closes Possible next := by
  cases taken with
  | tick elapsed => exact closes
  | beginAborted attempt now message ready =>
      apply closes.enter
      intro completion tries impossible
      cases impossible
  | begun attempt now tx phase ready past entered =>
      apply closes.enter
      intro completion tries found
      rcases entered with rfl | ⟨message, rfl⟩
      · exact absurd found (afterBegin_ne_finishing _ _ _ _)
      · cases found
  | lookedUp attempt reply deadline found =>
      exact closes.enter (looked attempt reply rfl deadline)
  | wrote attempt deadline found =>
      apply closes.enter
      intro completion tries impossible
      cases impossible
  | neverWritten attempt message deadline found =>
      apply closes.enter
      intro completion tries same
      cases same
      exact unsent message
  | answered attempt answer found =>
      apply closes.enter
      intro completion tries same
      cases same
      exact sent attempt answer rfl
  | recorded attempt tx completion tries row phase found stored holder closing =>
      apply closes.enter
      rcases closing with rfl | missed
      · exact fun _ _ impossible => nomatch impossible
      · exact possible_of_missed (closes attempt completion tries found) missed
  | finishMissed attempt tx completion tries phase found missed =>
      exact closes.enter (possible_of_missed (closes attempt completion tries found) missed)
  | abandoned attempt message completion tries phase found missed =>
      exact closes.enter (possible_of_missed (closes attempt completion tries found) missed)
  | crashed attempt =>
      apply closes.enter
      intro completion tries impossible
      cases impossible

private theorem afterLookup_sound (deadline : Time) (reply : LookupReply) :
    ∀ completion tries, afterLookup deadline (lookupEffect reply) = .finishing completion tries →
      completion.Sound := by
  intro completion tries found
  cases effect : lookupEffect reply with
  | absent =>
      rw [effect] at found
      cases found
  | failed message =>
      rw [effect] at found
      cases found
      trivial
  | found status body =>
      rw [effect] at found
      cases found
      exact (lookupEffect_found effect).1

theorem closesSound_step (sound : ClosesSound w) (taken : Transition plan w action next) :
    ClosesSound next :=
  Closes.step sound (fun _ reply _ deadline => afterLookup_sound deadline reply)
    (fun _ => classify_sound _) (fun _ _ _ => classify_sound _) taken

def LeaseSound (row : Option OperationRow) : Prop :=
  ∀ stored, row = some stored → (stored.leaseAttempt.isSome = true ↔ stored.state = .sending)

theorem leaseSound_none : LeaseSound none := by
  intro stored impossible
  cases impossible

theorem leaseSound_begin {row : Option OperationRow} (sound : LeaseSound row)
    (input : BeginInput) (now : Time) : LeaseSound (some (beginRow row input now).2) := by
  intro stored found
  cases found
  cases granted : (beginKind row input now).grants with
  | true =>
      rw [beginRow_granted granted]
      simp [OperationRow.grant]
  | false =>
      rcases beginRow_not_granted granted with kept | ⟨_, stopped⟩
      · rw [kept]
        cases row with
        | none => simp [lockedRow, insertPending]
        | some before => exact sound before rfl
      · rw [stopped]
        simp [OperationRow.refuse]

theorem leaseSound_finished (row : OperationRow) (mode : DeliveryMode) (completion : Completion) :
    LeaseSound (some (row.finished (completion.finishInput mode))) := by
  intro stored found
  cases found
  simpa [OperationRow.finished] using completion.finishInput_ne_sending mode

theorem leaseSound_step (sound : LeaseSound w.row) (taken : Transition plan w action next) :
    LeaseSound next.row := by
  cases taken with
  | begun attempt now tx phase ready past entered => exact leaseSound_begin sound _ now
  | recorded attempt tx completion tries row phase found stored holder closing =>
      exact leaseSound_finished row _ completion
  | _ => exact sound

def Event.Silent : Event → Prop
  | .begun _ _ _ => False
  | .recorded _ _ => False
  | _ => True

theorem unsettled_silent (silent : event.Silent) (history : List Event)
    (attempt : AttemptId) : Unsettled (event :: history) attempt ↔ Unsettled history attempt := by
  cases event with
  | begun author now kind => exact False.elim silent
  | recorded author input => exact False.elim silent
  | _ => exact Iff.rfl

theorem unsettled_refused {attempt other : AttemptId} {now : Time} {kind : DecisionKind}
    (refused : kind.grants = false) :
    Unsettled (.begun attempt now kind :: history) other ↔ Unsettled history other := by
  unfold Unsettled
  simp [grantees, recordsOf, refused]

theorem unsettled_granted {attempt other : AttemptId} {now : Time} {kind : DecisionKind}
    (open_ : Unsettled (.begun attempt now kind :: history) other) :
    other = attempt ∨ Unsettled history other := by
  obtain ⟨granted, records⟩ := open_
  cases grants : kind.grants with
  | false =>
      rw [grantees, if_neg (by simp [grants])] at granted
      exact Or.inr ⟨granted, records⟩
  | true =>
      rw [grantees, if_pos grants] at granted
      rcases List.mem_cons.mp granted with same | older
      · exact Or.inl same
      · exact Or.inr ⟨older, records⟩

theorem unsettled_recorded {attempt other : AttemptId} {f : FinishInput} :
    Unsettled (.recorded attempt f :: history) other ↔
      Unsettled history other ∧ (attempt = other → f.state.definite = false) := by
  unfold Unsettled
  by_cases same : attempt = other
  · subst other
    simp only [grantees, recordsOf, if_pos, List.mem_cons, forall_eq_or_imp, forall_const]
    constructor
    · rintro ⟨granted, indefinite, records⟩
      exact ⟨⟨granted, records⟩, indefinite⟩
    · rintro ⟨⟨granted, records⟩, indefinite⟩
      exact ⟨granted, indefinite, records⟩
  · simp [grantees, recordsOf, same]

/-- Only a committed begin and a recorded finish move the row. A property of
the row and the history that other events leave alone is checked on these two. -/
theorem ledger_step (Property : Option OperationRow → List Event → Prop)
    (taken : Transition plan w action next) (holds : Property w.row w.history)
    (silent : ∀ event : Event, event.Silent → Property w.row (event :: w.history))
    (begun : ∀ attempt now tx, action = .begin attempt now tx →
      w.phase attempt = .ready → now ≤ w.clock →
      Property (some (beginRow w.row ((plan attempt).beginInput attempt) now).2)
        (.begun attempt now (beginKind w.row ((plan attempt).beginInput attempt) now) ::
          w.history))
    (recorded : ∀ attempt tx completion tries row, action = .finish attempt tx →
      w.phase attempt = .finishing completion tries → w.row = some row →
      row.leaseAttempt = some attempt →
      Property (some (row.finished (completion.finishInput (plan attempt).intent.mode)))
        (.recorded attempt (completion.finishInput (plan attempt).intent.mode) :: w.history)) :
    Property next.row next.history := by
  cases taken with
  | begun attempt now tx phase ready past entered => exact begun attempt now tx rfl ready past
  | recorded attempt tx completion tries row phase found stored holder closing =>
      exact recorded attempt tx completion tries row rfl found stored holder
  | lookedUp attempt reply deadline found => exact silent (.lookedUp _ _) trivial
  | wrote attempt deadline found => exact silent (.wrote _ _) trivial
  | answered attempt answer found => exact silent (.answered _ _) trivial
  | _ => exact holds

end MigrationPlatform.Delivery
