/-
What a replay reports of the answer that was recorded.

A body is put in order when it is received, filtered when it is stored and put in
order again when it is replayed. The filter keeps nothing of `null`, which comes
back as it was, and nothing of an empty object, which does not.
-/

import MigrationPlatform.Delivery.AttemptInvariants
import MigrationPlatform.Delivery.ChangedPayload
import MigrationPlatform.Delivery.StoredAnswers
import MigrationPlatform.Template.Render

namespace MigrationPlatform.Delivery

open MigrationPlatform.Template JsonText Utf8

def Received (body : String) : Prop := ∃ raw, body = asText (safeJSON raw)

def Completion.Received : Completion → Prop
  | .lookupFound _ body => Delivery.Received body
  | .succeeded result => Delivery.Received result.body
  | _ => True

def Action.Received : Action → Prop
  | .lookup _ (.response _ body _ _) => Delivery.Received body
  | .answer _ (.response _ body _) => Delivery.Received body
  | _ => True

def lastRecord : List Event → Option (AttemptId × FinishInput)
  | [] => none
  | .recorded attempt input :: _ => some (attempt, input)
  | _ :: rest => lastRecord rest

/-- The row as a later begin reads it. `jsonb` is what the receipt column gives
back of what was written. -/
def OperationRow.readBack (jsonb : String → String) (row : OperationRow) : OperationRow :=
  { row with receiptJson := row.receiptJson.map jsonb }

def replayOutput (jsonb : String → String) (row : OperationRow) : CallEndpointOutput :=
  { status := row.receiptStatus.getD 0, body := replayBody (row.receiptJson.map jsonb)
    succeeded := true, outcome := .succeeded, replayed := true }

private theorem beginKind_readBack (jsonb : String → String) (row : OperationRow)
    (input : BeginInput)
    (now : Time) : beginKind (some (row.readBack jsonb)) input now = beginKind (some row) input now :=
  rfl

private theorem afterBegin_replay (jsonb : String → String) {row : OperationRow}
    {input : BeginInput}
    {now : Time} (replayed : beginKind (some row) input now = .replay) :
    afterBegin now (beginRow (some (row.readBack jsonb)) input now).1 =
      .returned (replayOutput jsonb row) none := by
  rw [← beginKind_readBack jsonb] at replayed
  unfold beginKind at replayed
  unfold afterBegin
  rw [replayed]
  rfl

/-- The column gives back a text of the same JSON value. -/
structure Preserves (env : RenderEnv) (jsonb : String → String) : Prop where
  value : ∀ body, Received body → env.parseBody (jsonb body) = env.parseBody body
  text : ∀ body, Received body → jsonb body ≠ ""

/-- The replayed output stands for the original one: in the workflow, and in every
path into the response of the step. -/
structure Reports (env : RenderEnv) (replayed original : CallEndpointOutput) : Prop where
  status : replayed.status = original.status
  body : env.parseBody replayed.body = env.parseBody original.body
  paths : ∀ (ctx : Context) (name path : String),
    (ctx.addResponse env name replayed.body).resolveResponsePath env name path =
      (ctx.addResponse env name original.body).resolveResponsePath env name path

private theorem safeJSON_eq_emptyObject (raw : Bytes) :
    safeJSON raw = [123, 125] ↔ trimSpaceBytes raw = [123, 125] := by
  unfold safeJSON
  simp only
  split
  · rename_i empty
    rw [empty]
    exact iff_of_false (by decide) (by decide)
  · split
    · exact Iff.rfl
    · rename_i invalid
      constructor
      · intro same
        cases same
      · intro same
        rw [same] at invalid
        exact absurd (by decide) invalid

theorem bytes_of_asText {bytes : Bytes} {text : String} (plain : Char.ofNat 0xFFFD ∉ text.toList)
    (same : asText bytes = text) : bytes = utf8 text := by
  have whole : valid bytes = true := by
    unfold valid
    rw [List.all_eq_true]
    intro rune member
    cases rune with
    | scalar char => rfl
    | invalid byte =>
        rw [← same, asText, String.toList_ofList] at plain
        exact (plain (List.mem_map.mpr ⟨.invalid byte, member, rfl⟩)).elim
  rw [← same, utf8_asText whole]

private theorem asText_eq_emptyObject (bytes : Bytes) :
    asText bytes = "\x7b\x7d" ↔ bytes = [123, 125] := by
  constructor
  · intro same
    exact bytes_of_asText (by decide) same
  · intro same
    rw [same]
    decide

theorem Received.ne_empty {body : String} (received : Received body) : body ≠ "" := by
  obtain ⟨raw, rfl⟩ := received
  intro same
  exact safeJSON_ne_nil raw (bytes_of_asText (by decide) same)

def recordedOutput (plan : AttemptId → AttemptPlan) (attempt : AttemptId) (completion : Completion) :
    CallEndpointOutput :=
  (completion.returns (plan attempt).intent.mode none).1

variable {completion : Completion}

private theorem output_of_succeeded {mode : DeliveryMode}
    (done : (completion.finishInput mode).state = .succeeded) (received : completion.Received) :
    (completion.returns mode none).1.status = (completion.finishInput mode).httpStatus ∧
      (completion.returns mode none).1.body = (completion.finishInput mode).receipt ∧
        Received (completion.finishInput mode).receipt := by
  cases completion with
  | lookupFound status body => exact ⟨rfl, rfl, received⟩
  | succeeded result => exact ⟨rfl, rfl, received⟩
  | unknown result =>
      by_cases manual : mode = .manual
      · simp only [Completion.finishInput, manual, if_true] at done
        cases done
      · simp only [Completion.finishInput, manual, if_false] at done
        cases done
  | _ => cases done

structure RecordedAs (plan : AttemptId → AttemptPlan) (history : List Event) (row : OperationRow)
    (attempt : AttemptId) (completion : Completion) : Prop where
  last : lastRecord history =
    some (attempt, completion.finishInput (plan attempt).intent.mode)
  done : (completion.finishInput (plan attempt).intent.mode).state = .succeeded
  received : completion.Received
  status : row.receiptStatus =
    some (completion.finishInput (plan attempt).intent.mode).httpStatus
  receipt : row.receiptJson =
    nullIfJSON (completion.finishInput (plan attempt).intent.mode).receipt

variable {plan : AttemptId → AttemptPlan} {w next : World} {action : Action}

variable {attempt : AttemptId}

theorem received_of_lookup {reply : LookupReply}
    (received : (Action.lookup attempt reply).Received) (deadline : Time) :
    ∀ completion tries, afterLookup deadline (lookupEffect reply) = .finishing completion tries →
      completion.Received := by
  intro completion tries closed
  cases reply with
  | transportError message =>
      cases closed
      trivial
  | response status body preview document =>
      simp only [lookupEffect] at closed
      split at closed
      · cases closed
      · split at closed
        · cases closed
          trivial
        · cases document with
          | error message =>
              cases closed
              trivial
          | ok hit =>
              cases hit with
              | false => cases closed
              | true =>
                  cases closed
                  exact received

theorem received_of_classify {result : SendResult}
    (received : result.err = none → Received result.body) : (classify result).Received := by
  cases failed : result.err with
  | some message =>
      have unanswered : ¬result.err = none := by simp [failed]
      unfold classify
      simp only [unanswered, false_and, if_false, or_false]
      split <;> trivial
  | none =>
      cases closed : classify result with
      | succeeded sent =>
          rw [(classify_succeeded closed).1]
          exact received failed
      | lookupFound status body =>
          unfold classify at closed
          repeat' split at closed
          all_goals cases closed
      | _ => trivial

theorem closesReceived_step (closes : Closes Completion.Received w) (received : action.Received)
    (taken : Transition plan w action next) : Closes Completion.Received next := by
  apply closes.step _ _ _ taken
  · intro attempt reply same deadline
    rw [same] at received
    exact received_of_lookup received deadline
  · intro message
    apply received_of_classify
    intro impossible
    cases impossible
  · intro attempt answer same
    apply received_of_classify
    rw [same] at received
    cases answer with
    | response status body preview => exact fun _ => received
    | broken message =>
        intro impossible
        cases impossible

theorem RecordedAs.past {history : List Event} {row : OperationRow}
    (recorded : RecordedAs plan history row attempt completion)
    {event : Event} (kept : lastRecord (event :: history) = lastRecord history) :
    RecordedAs plan (event :: history) row attempt completion :=
  ⟨kept.trans recorded.last, recorded.done, recorded.received, recorded.status, recorded.receipt⟩

private theorem lastRecord_silent {event : Event} (silent : event.Silent) (history : List Event) :
    lastRecord (event :: history) = lastRecord history := by
  cases event with
  | recorded attempt input => exact False.elim silent
  | _ => rfl

private theorem recordedAs_finished (sound : completion.Sound)
    (received : completion.Received) (history : List Event) (row : OperationRow)
    (done : (completion.finishInput (plan attempt).intent.mode).state = .succeeded) :
    RecordedAs plan
      (.recorded attempt (completion.finishInput (plan attempt).intent.mode) :: history)
      (row.finished (completion.finishInput (plan attempt).intent.mode)) attempt completion := by
  have status := sound.status_ne_zero done
  refine ⟨rfl, done, received, ?_, if_pos done⟩
  simp [OperationRow.finished, zeroToNil, status]

private theorem succeeded_before_begin {row : Option OperationRow} {input : BeginInput} {now : Time}
    (done : (beginRow row input now).2.state = .succeeded) :
    row = some (beginRow row input now).2 := by
  cases granted : (beginKind row input now).grants with
  | true =>
      rw [beginRow_granted granted] at done
      cases done
  | false =>
      rcases beginRow_not_granted granted with kept | ⟨_, stopped⟩
      · rw [kept] at done ⊢
        cases row with
        | none => cases done
        | some stored => rfl
      · rw [stopped] at done
        cases done

/-! ### What the recording attempt returns -/

/-- The attempt is past its record: it has returned, still tries to, or is gone. -/
def Settling (plan : AttemptId → AttemptPlan) (w : World) (attempt : AttemptId)
    (completion : Completion) : Prop :=
  ClosingPhase (plan attempt).intent.mode completion (w.phase attempt) ∨
    w.phase attempt = .crashed

def Phase.unanswered : Phase → Bool
  | .ready => true
  | .lookingUp _ => true
  | .sending _ => true
  | .inFlight => true
  | _ => false

theorem Settling.answered
    (settling : Settling plan w attempt completion) : (w.phase attempt).unanswered = false := by
  rcases settling with (returned | ⟨tries, waiting⟩ | ⟨output, err, failed⟩) | gone
  · rw [returned]
    rfl
  · rw [waiting]
    rfl
  · rw [failed]
    rfl
  · rw [gone]
    rfl

theorem Settling.enter {attempt other : AttemptId}
    (settling : Settling plan w attempt completion) {phase : Phase} (own : attempt = other →
      ClosingPhase (plan attempt).intent.mode completion phase ∨ phase = .crashed)
    {row : Option OperationRow} {history : List Event} :
    Settling plan { clock := w.clock, row := row
                    phase := Function.update w.phase other phase, history := history }
      attempt completion := by
  unfold Settling
  by_cases same : attempt = other
  · simp only [same, Function.update_self]
    rw [← same]
    exact own same
  · simp only [Function.update_of_ne same]
    exact settling

theorem Settling.enter_unanswered {attempt other : AttemptId}
    (settling : Settling plan w attempt completion) {phase : Phase}
    (unanswered : (w.phase other).unanswered = true)
    {row : Option OperationRow} {history : List Event} :
    Settling plan { clock := w.clock, row := row
                    phase := Function.update w.phase other phase, history := history }
      attempt completion := by
  apply settling.enter
  intro same
  have answered := settling.answered
  rw [same, unanswered] at answered
  cases answered

theorem Settling.same_completion {completion branch : Completion}
    {tries : Nat} (settling : Settling plan w attempt completion)
    (found : w.phase attempt = .finishing branch tries) : branch = completion := by
  rcases settling with (returned | ⟨later, waiting⟩ | ⟨output, err, failed⟩) | gone
  · rw [returned] at found
    cases found
  · rw [waiting] at found
    cases found
    rfl
  · rw [failed] at found
    cases found
  · rw [gone] at found
    cases found

theorem Settling.step
    (settling : Settling plan w attempt completion) (taken : Transition plan w action next) :
    Settling plan next attempt completion := by
  cases taken with
  | tick elapsed => exact settling
  | beginAborted other now message ready => exact settling.enter_unanswered (by rw [ready]; rfl)
  | begun other now tx phase ready past entered =>
      exact settling.enter_unanswered (by rw [ready]; rfl)
  | lookedUp other reply deadline found => exact settling.enter_unanswered (by rw [found]; rfl)
  | wrote other deadline found => exact settling.enter_unanswered (by rw [found]; rfl)
  | neverWritten other message deadline found =>
      exact settling.enter_unanswered (by rw [found]; rfl)
  | answered other answer found => exact settling.enter_unanswered (by rw [found]; rfl)
  | recorded other tx branch tries row phase found stored holder closing =>
      apply settling.enter
      intro same
      subst same
      rw [settling.same_completion found] at closing
      exact Or.inl closing
  | finishMissed other tx branch tries phase found missed =>
      apply settling.enter
      intro same
      subst same
      rw [settling.same_completion found] at missed
      exact Or.inl (Or.inr missed)
  | abandoned other message branch tries phase found missed =>
      apply settling.enter
      intro same
      subst same
      rw [settling.same_completion found] at missed
      exact Or.inl (Or.inr missed)
  | crashed other =>
      apply settling.enter
      intro same
      exact Or.inr rfl

private theorem settling_of_finish {tx : TxOutcome}
    {tries : Nat} (found : w.phase attempt = .finishing completion tries)
    (taken : Transition plan w (.finish attempt tx) next) :
    Settling plan next attempt completion := by
  have finishing : Settling plan w attempt completion := Or.inl (Or.inr (Or.inl ⟨tries, found⟩))
  exact finishing.step taken

theorem Settling.output
    {original : CallEndpointOutput} (settling : Settling plan w attempt completion)
    (returned : w.phase attempt = .returned original none) :
    original = recordedOutput plan attempt completion := by
  rcases settling with (closed | ⟨later, waiting⟩ | ⟨output, err, failed⟩) | gone
  · rw [closed] at returned
    injection returned with same
    exact same.symm
  · rw [waiting] at returned
    cases returned
  · rw [failed] at returned
    cases returned
  · rw [gone] at returned
    cases returned

structure ReceiptSound (plan : AttemptId → AttemptPlan) (w : World) : Prop where
  sound : ClosesSound w
  received : Closes Completion.Received w
  succeeded : ∀ row, w.row = some row → row.state = .succeeded →
    ∃ attempt completion, RecordedAs plan w.history row attempt completion ∧
      Settling plan w attempt completion

theorem receiptSound_step (receipts : ReceiptSound plan w) (received : action.Received)
    (taken : Transition plan w action next) : ReceiptSound plan next := by
  refine ⟨closesSound_step receipts.sound taken,
    closesReceived_step receipts.received received taken, ?_⟩
  apply ledger_step (fun stored history => ∀ row, stored = some row → row.state = .succeeded →
    ∃ attempt completion, RecordedAs plan history row attempt completion ∧
      Settling plan next attempt completion) taken
  · intro row stored done
    obtain ⟨attempt, completion, recorded, settling⟩ := receipts.succeeded row stored done
    exact ⟨attempt, completion, recorded, settling.step taken⟩
  · intro event silent row stored done
    obtain ⟨attempt, completion, recorded, settling⟩ := receipts.succeeded row stored done
    exact ⟨attempt, completion, recorded.past (lastRecord_silent silent _), settling.step taken⟩
  · intro attempt now tx _action ready past row stored done
    cases stored
    obtain ⟨recorder, completion, recorded, settling⟩ :=
      receipts.succeeded _ (succeeded_before_begin done) done
    exact ⟨recorder, completion, recorded.past rfl, settling.step taken⟩
  · intro attempt tx completion tries before finish found _stored _holder row same done
    cases same
    subst finish
    exact ⟨attempt, completion, recordedAs_finished (receipts.sound attempt completion tries found)
      (receipts.received attempt completion tries found) w.history before done,
      settling_of_finish found taken⟩

theorem ReceiptSound.start (clock : Time) : ReceiptSound plan (.start none clock) := by
  constructor
  · intro attempt completion tries impossible
    cases impossible
  · intro attempt completion tries impossible
    cases impossible
  · intro row impossible
    cases impossible

theorem receiptSound_run {clock : Time} {actions : List Action}
    (received : ∀ sent ∈ actions, sent.Received)
    (ran : World.run plan (.start none clock) actions = some w) : ReceiptSound plan w := by
  have guarded : GuardedRuns.Obeys (World.step plan) (fun _ action => action.Received)
      (.start none clock) actions :=
    GuardedRuns.obeys_of_forall (fun sent member _ => received sent member) _
  exact holds_after_run
    (fun _ _ _ arrived receipts taken => receiptSound_step receipts arrived taken)
    (ReceiptSound.start clock) guarded ran

private theorem receiptJson_eq {history : List Event} {row : OperationRow}
    (recorded : RecordedAs plan history row attempt completion) :
    row.receiptStatus = some (recordedOutput plan attempt completion).status ∧
      row.receiptJson = nullIfJSON (recordedOutput plan attempt completion).body ∧
        Received (recordedOutput plan attempt completion).body := by
  obtain ⟨status, body, received⟩ := output_of_succeeded recorded.done recorded.received
  unfold recordedOutput
  rw [status, body]
  exact ⟨recorded.status, recorded.receipt, received⟩

private theorem replayBody_of_kept {env : RenderEnv} {jsonb : String → String}
    (preserves : Preserves env jsonb) {body : String} (received : Received body)
    (kept : body ≠ "\x7b\x7d") :
    replayBody ((nullIfJSON body).map jsonb) ≠ "" ∧
      env.parseBody (replayBody ((nullIfJSON body).map jsonb)) = env.parseBody body := by
  by_cases null : body = "null"
  · rw [null]
    exact ⟨show "null" ≠ "" by decide, rfl⟩
  · have stored : nullIfJSON body = some body := by
      simp [nullIfJSON, received.ne_empty, null, kept]
    rw [stored]
    exact ⟨preserves.text body received, preserves.value body received⟩

private theorem resolveResponsePath_congr {env : RenderEnv} {left right : String}
    (leftGiven : left ≠ "")
    (rightGiven : right ≠ "") (same : env.parseBody left = env.parseBody right) (ctx : Context)
    (name path : String) :
    (ctx.addResponse env name left).resolveResponsePath env name path =
      (ctx.addResponse env name right).resolveResponsePath env name path := by
  simp only [Context.addResponse, if_neg leftGiven, if_neg rightGiven, same]

private theorem reports_iff {env : RenderEnv} {jsonb : String → String}
    (apart : env.parseBody "\x7b\x7d" ≠ env.parseBody "null") (preserves : Preserves env jsonb)
    {row : OperationRow} {original : CallEndpointOutput} (received : Received original.body)
    (status : row.receiptStatus = some original.status)
    (receipt : row.receiptJson = nullIfJSON original.body) :
    Reports env (replayOutput jsonb row) original ↔ original.body ≠ "\x7b\x7d" := by
  constructor
  · intro reports dropped
    have same := reports.body
    simp only [replayOutput, receipt, dropped] at same
    exact apart same.symm
  · intro kept
    obtain ⟨given, value⟩ := replayBody_of_kept preserves received kept
    rw [← receipt] at given value
    exact ⟨by simp [replayOutput, status], value,
      resolveResponsePath_congr given received.ne_empty value⟩

/-- A replay after any run: the ledger has the answer of one attempt, and the
replay reports it unless the body that arrived was an empty object. -/
theorem replay_reports_iff (env : RenderEnv) (jsonb : String → String)
    (apart : env.parseBody "\x7b\x7d" ≠ env.parseBody "null") (preserves : Preserves env jsonb)
    (clock : Time) (actions : List Action) (received : ∀ sent ∈ actions, sent.Received)
    (w : World) (ran : World.run plan (.start none clock) actions = some w) (row : OperationRow)
    (stored : w.row = some row) (later : AttemptId) (now : Time)
    (replayed : beginKind (some row) ((plan later).beginInput later) now = .replay) :
    afterBegin now (beginRow (some (row.readBack jsonb)) ((plan later).beginInput later) now).1 =
        .returned (replayOutput jsonb row) none ∧
      ∃ attempt completion, RecordedAs plan w.history row attempt completion ∧
        (∀ original, w.phase attempt = .returned original none →
          original = recordedOutput plan attempt completion) ∧
        (∃ raw, (recordedOutput plan attempt completion).body = asText (safeJSON raw)) ∧
        ∀ raw, (recordedOutput plan attempt completion).body = asText (safeJSON raw) →
          (Reports env (replayOutput jsonb row) (recordedOutput plan attempt completion) ↔
            trimSpaceBytes raw ≠ [123, 125]) := by
  refine ⟨afterBegin_replay jsonb replayed, ?_⟩
  have done : row.state = .succeeded :=
    state_of_effective (by decide) (succeeded_of_replay replayed).1
  obtain ⟨attempt, completion, recorded, settling⟩ :=
    (receiptSound_run received ran).succeeded row stored done
  obtain ⟨status, receipt, arrived⟩ := receiptJson_eq recorded
  refine ⟨attempt, completion, recorded, fun _ => settling.output, arrived, ?_⟩
  intro raw same
  rw [reports_iff apart preserves arrived status receipt, same, ne_eq, ne_eq, asText_eq_emptyObject,
    safeJSON_eq_emptyObject]

/-! ### A number and an empty object -/

def shortBodies : RenderEnv :=
  { fraction := fun _ => none
    parseJSONPath := fun _ => .error "no path"
    parseBody := fun body =>
      if body = "null" then some .null
      else if body = "\x7b\x7d" then some (.object [])
      else if body = "7" then some (.number "7")
      else none
    sprint := fun _ => ""
    parseURL := .ok
    withQuery := fun url _ => url }

theorem Preserves.unchanged (env : RenderEnv) : Preserves env id :=
  ⟨fun _ _ => rfl, fun _ received => received.ne_empty⟩

def answeredWith (body : String) : List Action :=
  [.begin "run:1:1" 0 .acknowledged, .write "run:1:1",
    .answer "run:1:1" (.response 201 body body), .finish "run:1:1" .acknowledged]

theorem answeredWith_received {body : String} (received : Received body) :
    ∀ sent ∈ answeredWith body, sent.Received := by
  simp [answeredWith, Action.Received, received]

theorem number_replayed :
    ∃ w row, World.run editedPlan (.start none 0) (answeredWith "7") = some w ∧
      w.row = some row ∧
      afterBegin 0 (beginRow (some (row.readBack id))
        ((editedPlan "run:2:1").beginInput "run:2:1") 0).1 =
          .returned (replayOutput id row) none ∧
        ∃ attempt completion, RecordedAs editedPlan w.history row attempt completion ∧
          (∀ original, w.phase attempt = .returned original none →
            original = recordedOutput editedPlan attempt completion) ∧
          (∃ raw, (recordedOutput editedPlan attempt completion).body = asText (safeJSON raw)) ∧
          ∀ raw, (recordedOutput editedPlan attempt completion).body = asText (safeJSON raw) →
            (Reports shortBodies (replayOutput id row)
                (recordedOutput editedPlan attempt completion) ↔
              trimSpaceBytes raw ≠ [123, 125]) := by
  refine ⟨_, _, rfl, rfl, ?_⟩
  have received : Received "7" := ⟨[55], by decide⟩
  have apart : shortBodies.parseBody "\x7b\x7d" ≠ shortBodies.parseBody "null" := by
    change some (Connectors.Value.object []) ≠ some .null
    intro same
    cases same
  exact replay_reports_iff shortBodies id apart (.unchanged _) 0 (answeredWith "7")
    (answeredWith_received received) _ rfl _ rfl "run:2:1" 0 (by decide)

/-- A receipt of an empty object is stored as no receipt and replayed as `null`. -/
theorem empty_object_replayed_as_null :
    ∃ w row original, World.run editedPlan (.start none 0) (answeredWith "\x7b\x7d") = some w ∧
      (∀ sent ∈ answeredWith "\x7b\x7d", sent.Received) ∧ w.row = some row ∧
      beginKind w.row ((editedPlan "run:2:1").beginInput "run:2:1") 0 = .replay ∧
      w.phase "run:1:1" = .returned original none ∧ original.body = "\x7b\x7d" ∧
      ∀ jsonb, (replayOutput jsonb row).body = "null" ∧
        ∀ env : RenderEnv, env.parseBody "\x7b\x7d" ≠ env.parseBody "null" →
          ¬Reports env (replayOutput jsonb row) original := by
  have received : Received "\x7b\x7d" := ⟨[123, 125], by decide⟩
  refine ⟨_, _, _, rfl, answeredWith_received received, rfl, by decide, rfl, rfl, ?_⟩
  intro jsonb
  refine ⟨rfl, ?_⟩
  intro env apart reports
  exact apart reports.body.symm

end MigrationPlatform.Delivery
