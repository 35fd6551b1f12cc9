/-
Delivery mode `lookup` looks for the effect before it sends again.

Every granted attempt owes a lookup until the ledger records its definite end or
an attempt that was begun after it has looked up and found nothing. Nobody else
owes one when a request is written. The one assumption is that an attempt does
not write past its own lease, which the start-to-close timeout of the activity
is there to ensure.
-/

import MigrationPlatform.Delivery.AttemptInvariants

namespace MigrationPlatform.Delivery

variable {plan : AttemptId → AttemptPlan} {w next : World} {action : Action}

def GrantedAfter (history : List Event) (later earlier : AttemptId) : Prop :=
  ∃ newer older, grantees history = newer ++ later :: older ∧ earlier ∈ older

def OwesLookup (attempt : AttemptId) : List Event → Prop
  | [] => False
  | .begun author _ kind :: rest =>
      author = attempt ∧ kind.grants = true ∨ OwesLookup attempt rest
  | .wrote author _ :: rest => author = attempt ∨ OwesLookup attempt rest
  | .lookedUp author .absent :: rest =>
      OwesLookup attempt rest ∧ ¬GrantedAfter rest author attempt
  | .recorded author input :: rest =>
      OwesLookup attempt rest ∧ (author = attempt → input.state.definite = false)
  | _ :: rest => OwesLookup attempt rest

variable {attempt : AttemptId} {history : List Event}

theorem granted_or_wrote_of_owes (owes : OwesLookup attempt history) :
    attempt ∈ grantees history ∨ attempt ∈ writers history := by
  induction history with
  | nil => cases owes
  | cons event rest ih =>
      cases event with
      | begun author now kind =>
          rcases owes with ⟨rfl, granted⟩ | older
          · rw [grantees, if_pos granted]
            exact Or.inl List.mem_cons_self
          · rcases ih older with granted | wrote
            · exact Or.inl (grantees_mono _ granted)
            · exact Or.inr wrote
      | wrote author time =>
          rcases owes with rfl | older
          · exact Or.inr List.mem_cons_self
          · rcases ih older with granted | wrote
            · exact Or.inl granted
            · exact Or.inr (List.mem_cons_of_mem _ wrote)
      | lookedUp author effect =>
          cases effect with
          | absent => exact ih owes.1
          | failed message => exact ih owes
          | found status body => exact ih owes
      | answered author result => exact ih owes
      | recorded author input => exact ih owes.1

theorem owes_of_lookedUp {attempt author : AttemptId} {effect : LookupEffect}
    (owes : OwesLookup attempt (.lookedUp author effect :: history)) :
    OwesLookup attempt history := by
  cases effect with
  | absent => exact owes.1
  | failed message => exact owes
  | found status body => exact owes

theorem owes_of_begun {attempt author : AttemptId} {now : Time} {kind : DecisionKind}
    (owes : OwesLookup attempt (.begun author now kind :: history))
    (other : author ≠ attempt ∨ kind.grants = false) : OwesLookup attempt history := by
  rcases owes with ⟨same, granted⟩ | older
  · rcases other with different | refused
    · exact absurd same different
    · rw [granted] at refused
      cases refused
  · exact older

/-- A lookup that another attempt made since: after the attempt was granted and
after it wrote, by an attempt begun later, and it reported the effect absent. -/
def LookedUpSince (attempt : AttemptId) (history : List Event) : Prop :=
  ∃ since author before, history = since ++ .lookedUp author .absent :: before ∧
    GrantedAfter before author attempt ∧
    attempt ∉ grantees since ∧ attempt ∉ writers since

def Settled (attempt : AttemptId) (history : List Event) : Prop :=
  ∃ f ∈ recordsOf attempt history, f.state.definite = true

private theorem settled_cons (event : Event)
    (settled : Settled attempt history) : Settled attempt (event :: history) := by
  obtain ⟨f, member, definite⟩ := settled
  refine ⟨f, ?_, definite⟩
  cases event with
  | recorded author input =>
      by_cases same : author = attempt <;> simp [recordsOf, same, member]
  | _ => exact member

private theorem lookedUpSince_cons {event : Event}
    (looked : LookedUpSince attempt history) (ungranted : attempt ∉ grantees [event])
    (unwritten : attempt ∉ writers [event]) : LookedUpSince attempt (event :: history) := by
  obtain ⟨since, author, before, rfl, after, noGrant, noWrite⟩ := looked
  refine ⟨event :: since, author, before, rfl, after, ?_, ?_⟩
  · intro granted
    cases event with
    | begun other now kind =>
        cases grants : kind.grants with
        | false => simp [grantees, grants, noGrant] at granted
        | true => simp_all [grantees]
    | _ => exact noGrant granted
  · intro wrote
    cases event with
    | wrote other time => simp_all [writers]
    | _ => exact noWrite wrote

theorem settled_or_lookedUp
    (granted : attempt ∈ grantees history) (clear : ¬OwesLookup attempt history) :
    Settled attempt history ∨ LookedUpSince attempt history := by
  induction history with
  | nil => cases granted
  | cons event rest ih =>
      have carry : attempt ∈ grantees rest → ¬OwesLookup attempt rest →
          attempt ∉ grantees [event] → attempt ∉ writers [event] →
          Settled attempt (event :: rest) ∨ LookedUpSince attempt (event :: rest) := by
        intro older clearRest ungranted unwritten
        rcases ih older clearRest with settled | looked
        · exact Or.inl (settled_cons event settled)
        · exact Or.inr (lookedUpSince_cons looked ungranted unwritten)
      cases event with
      | begun author now kind =>
          have clearRest : ¬OwesLookup attempt rest := fun owes => clear (Or.inr owes)
          have ungranted : attempt ∉ grantees [.begun author now kind] := by
            cases grants : kind.grants with
            | false => simp [grantees, grants]
            | true =>
                have different : attempt ≠ author :=
                  fun same => clear (Or.inl ⟨same.symm, grants⟩)
                simp [grantees, grants, different]
          refine carry ?_ clearRest ungranted List.not_mem_nil
          cases grants : kind.grants <;> simp_all [grantees]
      | wrote author time =>
          have different : attempt ≠ author := fun same => clear (Or.inl same.symm)
          refine carry granted (fun owes => clear (Or.inr owes)) List.not_mem_nil ?_
          simp [writers, different]
      | answered author result =>
          exact carry granted clear List.not_mem_nil List.not_mem_nil
      | recorded author input =>
          by_cases owes : OwesLookup attempt rest
          · -- the record itself is the definite end
            have definite : ¬(author = attempt → input.state.definite = false) :=
              fun open_ => clear ⟨owes, open_⟩
            by_cases same : author = attempt
            · refine Or.inl ⟨input, by simp [recordsOf, same], ?_⟩
              cases state : input.state.definite with
              | true => rfl
              | false => exact absurd (fun _ => state) definite
            · exact absurd (fun equal => absurd equal same) definite
          · exact carry granted owes List.not_mem_nil List.not_mem_nil
      | lookedUp author effect =>
          by_cases owes : OwesLookup attempt rest
          · cases effect with
            | absent =>
                have after : GrantedAfter rest author attempt := by
                  by_contra before
                  exact clear ⟨owes, before⟩
                exact Or.inr ⟨[], author, rest, rfl, after, List.not_mem_nil, List.not_mem_nil⟩
            | failed message => exact absurd owes clear
            | found status body => exact absurd owes clear
          · exact carry granted owes List.not_mem_nil List.not_mem_nil

def Holds (row : Option OperationRow) (attempt : AttemptId) (deadline : Time) : Prop :=
  ∃ stored, row = some stored ∧ stored.leaseAttempt = some attempt ∧
    stored.leaseUntil = some deadline

def Phase.MaySend (deadline : Time) (phase : Phase) : Prop :=
  phase = .lookingUp deadline ∨ phase = .sending deadline

/-- Until its deadline an attempt that may still send holds the lease. -/
def LiveHolder (w : World) : Prop :=
  ∀ attempt deadline, (w.phase attempt).MaySend deadline → w.clock < deadline →
    Holds w.row attempt deadline

private theorem beginRow_of_live {row : OperationRow} {now deadline : Time}
    (lease : LeaseSound (some row)) (holder : row.leaseAttempt = some attempt)
    (until_ : row.leaseUntil = some deadline) (early : now < deadline) (input : BeginInput) :
    beginKind (some row) input now = .busy ∧ (beginRow (some row) input now).2 = row := by
  have sending : row.state = .sending := (lease row rfl).mp (by rw [holder]; rfl)
  have live : (row.snapshot now).leaseExpired = false := by
    simp only [OpSnapshot.leaseExpired, snapshot_leaseUntil, until_, snapshot_now]
    exact decide_eq_false (Nat.not_le.mpr early)
  have busy := beginKind_busy sending live input
  refine ⟨busy, ?_⟩
  have refused : (beginKind (some row) input now).grants = false := by rw [busy]; rfl
  rcases beginRow_not_granted refused with kept | ⟨stopped, _⟩
  · exact kept
  · rw [busy] at stopped
    cases stopped

variable {phase : Phase}

private theorem LiveHolder.act (live : LiveHolder w) {row : Option OperationRow}
    (own : ∀ deadline, phase.MaySend deadline → w.clock < deadline → Holds row attempt deadline)
    (others : ∀ other deadline, other ≠ attempt → w.clock < deadline →
      (w.phase other).MaySend deadline → Holds w.row other deadline →
      Holds row other deadline) :
    LiveHolder { clock := w.clock, row := row
                 phase := Function.update w.phase attempt phase, history := history } := by
  intro other deadline maySend early
  by_cases same : other = attempt
  · subst other
    simp only [Function.update_self] at maySend
    exact own deadline maySend early
  · simp only [Function.update_of_ne same] at maySend
    exact others other deadline same early maySend (live other deadline maySend early)

private theorem LiveHolder.leave (live : LiveHolder w)
    (done : ∀ deadline, ¬phase.MaySend deadline) :
    LiveHolder { clock := w.clock, row := w.row
                 phase := Function.update w.phase attempt phase, history := history } :=
  live.act (fun deadline maySend => absurd maySend (done deadline))
    (fun _ _ _ _ _ held => held)

theorem not_maySend_of_missed {completion : Completion}
    (missed : MissedPhase completion phase) (deadline : Time) : ¬phase.MaySend deadline := by
  rcases missed with ⟨tries, rfl⟩ | ⟨output, err, rfl⟩ <;> rintro (impossible | impossible) <;>
    cases impossible

theorem liveHolder_begun (lease : LeaseSound w.row) (live : LiveHolder w)
    {now : Time} (past : now ≤ w.clock)
    (entered : phase = afterBegin now (beginRow w.row ((plan attempt).beginInput attempt) now).1 ∨
      ∃ message, phase = beginFailed message) :
    LiveHolder ((w.commitBegin ((plan attempt).beginInput attempt) now).enter attempt phase) := by
  apply live.act
  · intro deadline maySend _early
    rcases entered with moved | ⟨message, failed⟩
    · have granted : (beginKind w.row ((plan attempt).beginInput attempt) now).grants = true ∧
          deadline = now + operationLease := by
        rw [moved, afterBegin] at maySend
        unfold beginKind
        cases decided :
            (beginRow w.row ((plan attempt).beginInput attempt) now).1.decision.kind <;>
          rw [decided] at maySend <;> rcases maySend with same | same <;> cases same <;>
          exact ⟨rfl, rfl⟩
      change Holds (some (beginRow w.row _ now).2) attempt deadline
      rw [beginRow_granted granted.1, granted.2]
      exact ⟨_, rfl, rfl, rfl⟩
    · rw [failed] at maySend
      rcases maySend with impossible | impossible <;> cases impossible
  · intro other deadline _different early _maySend held
    obtain ⟨row, stored, holder, until_⟩ := held
    change Holds (some (beginRow w.row _ now).2) other deadline
    rw [stored] at lease ⊢
    have early' : now < deadline := Nat.lt_of_le_of_lt past early
    rw [(beginRow_of_live lease holder until_ early' _).2]
    exact ⟨row, rfl, holder, until_⟩

theorem liveHolder_step (lease : LeaseSound w.row) (live : LiveHolder w)
    (taken : Transition plan w action next) : LiveHolder next := by
  cases taken with
  | tick elapsed =>
      intro attempt deadline maySend early
      exact live attempt deadline maySend (Nat.lt_of_le_of_lt (Nat.le_add_right _ _) early)
  | beginAborted attempt now message ready =>
      apply live.leave
      rintro deadline (impossible | impossible) <;> cases impossible
  | begun attempt now tx phase ready past entered =>
      exact liveHolder_begun lease live past entered
  | lookedUp attempt reply deadline found =>
      apply live.act
      · intro later maySend early
        have same : deadline = later := by
          cases effect : lookupEffect reply <;> rw [effect] at maySend <;>
            rcases maySend with same | same <;> cases same
          rfl
        exact live attempt later (Or.inl (found.trans (by rw [same]))) early
      · intro other later _different _early _maySend held
        exact held
  | wrote attempt deadline found =>
      apply live.leave
      rintro later (impossible | impossible) <;> cases impossible
  | neverWritten attempt message deadline found =>
      apply live.leave
      rintro later (impossible | impossible) <;> cases impossible
  | answered attempt answer found =>
      apply live.leave
      rintro later (impossible | impossible) <;> cases impossible
  | recorded attempt tx completion tries row phase found stored holder closing =>
      apply live.act
      · intro deadline maySend
        rcases closing with rfl | missed
        · rcases maySend with impossible | impossible <;> cases impossible
        · exact absurd maySend (not_maySend_of_missed missed deadline)
      · intro other deadline different _early _maySend held
        obtain ⟨before, same, otherHolder, _⟩ := held
        cases stored.symm.trans same
        exact absurd (Option.some.inj (otherHolder.symm.trans holder)) different
  | finishMissed attempt tx completion tries phase found missed =>
      exact live.leave (not_maySend_of_missed missed)
  | abandoned attempt message completion tries phase found missed =>
      exact live.leave (not_maySend_of_missed missed)
  | crashed attempt =>
      apply live.leave
      rintro later (impossible | impossible) <;> cases impossible

/-! ### The holder is the newest grantee -/

def NewestHolds (row : Option OperationRow) (history : List Event) : Prop :=
  ∀ stored attempt, row = some stored → stored.leaseAttempt = some attempt →
    ∃ older, grantees history = attempt :: older

private theorem newestHolds_begun {row : Option OperationRow}
    (newest : NewestHolds row history) (input : BeginInput) (now : Time) :
    NewestHolds (some (beginRow row input now).2)
      (.begun input.attemptID now (beginKind row input now) :: history) := by
  intro stored attempt found holder
  cases found
  cases granted : (beginKind row input now).grants with
  | true =>
      rw [beginRow_granted granted] at holder
      cases holder
      rw [grantees, if_pos granted]
      exact ⟨_, rfl⟩
  | false =>
      rw [grantees, if_neg (by simp [granted])]
      rcases beginRow_not_granted granted with kept | ⟨_, stopped⟩
      · rw [kept] at holder
        cases row with
        | none => cases holder
        | some before => exact newest before attempt rfl holder
      · rw [stopped] at holder
        cases holder

theorem newestHolds_step (newest : NewestHolds w.row w.history)
    (taken : Transition plan w action next) : NewestHolds next.row next.history := by
  apply ledger_step NewestHolds taken newest
  · intro event silent
    cases event with
    | begun attempt now kind => exact False.elim silent
    | recorded attempt input => exact False.elim silent
    | _ => exact newest
  · intro attempt now tx _action _ready _past
    exact newestHolds_begun newest ((plan attempt).beginInput attempt) now
  · intro attempt tx completion tries row _action _found _stored _holder stored other found holder
    cases found
    cases holder

/-- The phases from which the attempt may still end with a definite refusal. -/
def Phase.MayEndDefinite : Phase → Prop
  | .sending _ => True
  | .inFlight => True
  | .finishing completion _ => completion.definite = true
  | _ => False

def OnlyOwes (attempt : AttemptId) (history : List Event) : Prop :=
  ∀ other, other ≠ attempt → ¬OwesLookup other history

def HolderCleared (w : World) : Prop :=
  ∀ row attempt, w.row = some row → row.leaseAttempt = some attempt →
    (w.phase attempt).MayEndDefinite → OnlyOwes attempt w.history

def NobodyOwesIdle (row : Option OperationRow) (history : List Event) : Prop :=
  Idle row → ∀ attempt, ¬OwesLookup attempt history

def NeverBlind : List Event → Prop
  | [] => True
  | .wrote author _ :: rest => OnlyOwes author rest ∧ NeverBlind rest
  | _ :: rest => NeverBlind rest

def Phase.InLease (clock : Time) : Phase → Prop
  | .sending deadline => clock < deadline
  | _ => True

instance (clock : Time) : (phase : Phase) → Decidable (phase.InLease clock)
  | .sending deadline => inferInstanceAs (Decidable (clock < deadline))
  | .ready | .lookingUp _ | .inFlight | .finishing _ _ | .returned _ _ | .crashed => isTrue trivial

def WritesInLease (w : World) : Action → Prop
  | .write attempt => (w.phase attempt).InLease w.clock
  | _ => True

instance (w : World) : (action : Action) → Decidable (WritesInLease w action)
  | .write attempt => inferInstanceAs (Decidable ((w.phase attempt).InLease w.clock))
  | .tick _ | .begin _ _ _ | .lookup _ _ | .finish _ _ | .neverWritten _ _ | .answer _ _
  | .abandon _ _ | .crash _ => isTrue trivial

structure LookupSound (plan : AttemptId → AttemptPlan) (w : World) : Prop where
  traced : Traced plan w
  writers : WritersSound w
  lease : LeaseSound w.row
  newest : NewestHolds w.row w.history
  live : LiveHolder w
  idle : NobodyOwesIdle w.row w.history
  cleared : HolderCleared w
  blind : NeverBlind w.history

theorem LookupSound.start (clock : Time) : LookupSound plan (.start none clock) := by
  refine ⟨Traced.start none clock, ⟨?_, List.nodup_nil⟩, leaseSound_none, ?_, ?_, ?_, ?_, trivial⟩
  · intro attempt member
    cases member
  · intro stored attempt impossible
    cases impossible
  · rintro attempt deadline (impossible | impossible) <;> cases impossible
  · intro _idle attempt owes
    cases owes
  · intro row attempt impossible
    cases impossible

private theorem LookupSound.granted_of_owes (sound : LookupSound plan w)
    (owes : OwesLookup attempt w.history) : attempt ∈ grantees w.history := by
  rcases granted_or_wrote_of_owes owes with granted | wrote
  · exact granted
  · exact sound.writers.granted attempt wrote

theorem LookupSound.holder_of_write (sound : LookupSound plan w)
    {deadline : Time} (inLease : WritesInLease w (.write attempt))
    (found : w.phase attempt = .sending deadline) : Holds w.row attempt deadline := by
  simp only [WritesInLease, found] at inLease
  exact sound.live attempt deadline (Or.inr found) inLease

private theorem not_idle_of_holder {row : OperationRow}
    (lease : LeaseSound (some row)) (holder : row.leaseAttempt = some attempt) :
    ¬Idle (some row) := by
  intro idle
  have sending : row.state = .sending := (lease row rfl).mp (by rw [holder]; rfl)
  have settled := idle row rfl
  rw [sending] at settled
  cases settled

private theorem HolderCleared.act (cleared : HolderCleared w) {row : Option OperationRow}
    (own : ∀ stored, row = some stored → stored.leaseAttempt = some attempt →
      phase.MayEndDefinite → OnlyOwes attempt history)
    (others : ∀ stored other, other ≠ attempt → row = some stored →
      stored.leaseAttempt = some other →
      w.row = some stored ∧ ∀ debtor, OwesLookup debtor history → OwesLookup debtor w.history) :
    HolderCleared { clock := w.clock, row := row
                    phase := Function.update w.phase attempt phase, history := history } := by
  intro stored other found holder mayEnd
  by_cases same : other = attempt
  · subst other
    simp only [Function.update_self] at mayEnd
    exact own stored found holder mayEnd
  · simp only [Function.update_of_ne same] at mayEnd
    obtain ⟨before, kept⟩ := others stored other same found holder
    intro debtor different owes
    exact cleared stored other before holder mayEnd debtor different (kept debtor owes)

private theorem HolderCleared.move (cleared : HolderCleared w)
    (kept : phase.MayEndDefinite → (w.phase attempt).MayEndDefinite) :
    HolderCleared { clock := w.clock, row := w.row
                    phase := Function.update w.phase attempt phase, history := w.history } :=
  cleared.act (fun stored found holder mayEnd => cleared stored attempt found holder (kept mayEnd))
    (fun _ _ _ found _ => ⟨found, fun _ owes => owes⟩)

theorem mayEndDefinite_of_missed {completion : Completion}
    (missed : MissedPhase completion phase) (mayEnd : phase.MayEndDefinite) :
    completion.definite = true := by
  rcases missed with ⟨tries, rfl⟩ | ⟨output, err, rfl⟩
  · exact mayEnd
  · cases mayEnd

private theorem cleared_of_send {now : Time} (lookup : (plan attempt).intent.mode = .lookup)
    (unflagged : (plan attempt).intent.Unflagged) (idle : NobodyOwesIdle w.row w.history)
    (entered : phase = afterBegin now (beginRow w.row ((plan attempt).beginInput attempt) now).1 ∨
      ∃ message, phase = beginFailed message)
    (mayEnd : phase.MayEndDefinite) : ∀ debtor, ¬OwesLookup debtor w.history := by
  have send : beginKind w.row ((plan attempt).beginInput attempt) now = .send := by
    rcases entered with rfl | ⟨message, rfl⟩
    · unfold afterBegin at mayEnd
      unfold beginKind
      cases decided :
          (beginRow w.row ((plan attempt).beginInput attempt) now).1.decision.kind with
      | send => rfl
      | _ => rw [decided] at mayEnd; cases mayEnd
    · cases mayEnd
  have granted : (beginKind w.row ((plan attempt).beginInput attempt) now).grants = true := by
    rw [send]
    rfl
  cases rowGrant_of_granted unflagged granted with
  | idle free kind => exact idle free
  | dedup stored found unknown same mode inTime kind =>
      change (plan attempt).intent.mode = .idempotent at mode
      rw [lookup] at mode
      cases mode
  | lookup stored found unknown same mode kind =>
      rw [send] at kind
      cases kind

private theorem holderCleared_begun {now : Time} (lookup : (plan attempt).intent.mode = .lookup)
    (unflagged : (plan attempt).intent.Unflagged) (sound : LookupSound plan w)
    (entered : phase = afterBegin now (beginRow w.row ((plan attempt).beginInput attempt) now).1 ∨
      ∃ message, phase = beginFailed message) :
    HolderCleared
      ((w.commitBegin ((plan attempt).beginInput attempt) now).enter attempt phase) := by
  apply sound.cleared.act
  · intro stored _found _holder mayEnd debtor different owes
    apply cleared_of_send lookup unflagged sound.idle entered mayEnd debtor
    exact owes_of_begun owes (Or.inl (fun same => different same.symm))
  · intro stored other different found holder
    cases found
    cases granted : (beginKind w.row ((plan attempt).beginInput attempt) now).grants with
    | true =>
        rw [beginRow_granted granted] at holder
        cases holder
        exact absurd rfl different
    | false =>
        refine ⟨?_, fun debtor owes => owes_of_begun owes (Or.inr granted)⟩
        rcases beginRow_not_granted granted with kept | ⟨_, stopped⟩
        · rw [kept] at holder ⊢
          cases row : w.row with
          | none =>
              rw [row] at holder
              cases holder
          | some before => rfl
        · rw [stopped] at holder
          cases holder

private theorem holderCleared_lookedUp (sound : LookupSound plan w)
    {deadline : Time} (effect : LookupEffect) :
    HolderCleared ((w.note (.lookedUp attempt effect)).enter attempt
      (afterLookup deadline effect)) := by
  apply sound.cleared.act
  · intro stored found holder mayEnd debtor different owes
    cases effect with
    | failed message => cases mayEnd
    | found status body => cases mayEnd
    | absent =>
        -- the holder is the newest grantee, so its lookup covers every other debtor
        obtain ⟨older, grantedAs⟩ := sound.newest stored attempt found holder
        have granted := sound.granted_of_owes owes.1
        rw [grantedAs] at granted
        rcases List.mem_cons.mp granted with same | before
        · exact different same
        · exact owes.2 ⟨[], older, grantedAs, before⟩
  · intro stored other _different found _holder
    exact ⟨found, fun debtor owes => owes_of_lookedUp owes⟩

theorem holderCleared_step (lookup : ∀ attempt, (plan attempt).intent.mode = .lookup)
    (unflagged : ∀ attempt, (plan attempt).intent.Unflagged)
    (inLease : WritesInLease w action) (sound : LookupSound plan w)
    (taken : Transition plan w action next) : HolderCleared next := by
  cases taken with
  | tick elapsed => exact sound.cleared
  | beginAborted attempt now message ready =>
      exact sound.cleared.move (fun mayEnd => by cases mayEnd)
  | begun attempt now tx phase ready past entered =>
      exact holderCleared_begun (lookup attempt) (unflagged attempt) sound entered
  | lookedUp attempt reply deadline found => exact holderCleared_lookedUp sound _
  | wrote attempt deadline found =>
      apply sound.cleared.act
      · intro stored row holder _mayEnd debtor different owes
        have before : (w.phase attempt).MayEndDefinite := by rw [found]; trivial
        rcases owes with same | older
        · exact different same.symm
        · exact sound.cleared stored attempt row holder before debtor different older
      · intro stored other different row holder
        obtain ⟨held, same, writer, _⟩ := sound.holder_of_write inLease found
        cases row.symm.trans same
        exact absurd (Option.some.inj (holder.symm.trans writer)) different
  | neverWritten attempt message deadline found =>
      exact sound.cleared.move (fun _ => by rw [found]; trivial)
  | answered attempt answer found =>
      apply sound.cleared.act
      · intro stored row holder _mayEnd debtor different owes
        have before : (w.phase attempt).MayEndDefinite := by rw [found]; trivial
        exact sound.cleared stored attempt row holder before debtor different owes
      · intro stored other _different row _holder
        exact ⟨row, fun debtor owes => owes⟩
  | recorded attempt tx completion tries row phase found stored holder closing =>
      apply sound.cleared.act
      · intro after same held
        cases same
        cases held
      · intro after other _different same held
        cases same
        cases held
  | finishMissed attempt tx completion tries phase found missed =>
      apply sound.cleared.move
      intro mayEnd
      rw [found]
      exact mayEndDefinite_of_missed missed mayEnd
  | abandoned attempt message completion tries phase found missed =>
      apply sound.cleared.move
      intro mayEnd
      rw [found]
      exact mayEndDefinite_of_missed missed mayEnd
  | crashed attempt => exact sound.cleared.move (fun mayEnd => by cases mayEnd)

private theorem nobodyOwesIdle_begun (idle : NobodyOwesIdle w.row w.history)
    (attempt : AttemptId) (now : Time) :
    NobodyOwesIdle (some (beginRow w.row ((plan attempt).beginInput attempt) now).2)
      (.begun attempt now (beginKind w.row ((plan attempt).beginInput attempt) now) ::
        w.history) := by
  intro free debtor owes
  cases granted : (beginKind w.row ((plan attempt).beginInput attempt) now).grants with
  | true =>
      rw [beginRow_granted granted] at free
      have settled := free _ rfl
      cases settled
  | false =>
      rcases beginRow_not_granted granted with kept | ⟨_, stopped⟩
      · rw [kept] at free
        have before : Idle w.row := by
          cases row : w.row with
          | none =>
              intro stored impossible
              cases impossible
          | some stored =>
              rw [row] at free
              exact free
        exact idle before debtor (owes_of_begun owes (Or.inr granted))
      · rw [stopped] at free
        have settled := free _ rfl
        cases settled

private theorem nobodyOwesIdle_recorded (sound : LookupSound plan w)
    {completion : Completion} {tries : Nat} {row : OperationRow}
    (found : w.phase attempt = .finishing completion tries) (stored : w.row = some row)
    (holder : row.leaseAttempt = some attempt) :
    NobodyOwesIdle (some (row.finished (completion.finishInput (plan attempt).intent.mode)))
      (.recorded attempt (completion.finishInput (plan attempt).intent.mode) :: w.history) := by
  intro free debtor owes
  have definite := free _ rfl
  change (completion.finishInput (plan attempt).intent.mode).state.definite = true at definite
  by_cases same : attempt = debtor
  · have indefinite := owes.2 same
    rw [definite] at indefinite
    cases indefinite
  · rw [Completion.finishInput_definite] at definite
    have mayEnd : (w.phase attempt).MayEndDefinite := by rw [found]; exact definite
    exact sound.cleared row attempt stored holder mayEnd debtor
      (fun equal => same equal.symm) owes.1

theorem nobodyOwesIdle_step (inLease : WritesInLease w action) (sound : LookupSound plan w)
    (taken : Transition plan w action next) : NobodyOwesIdle next.row next.history := by
  cases taken with
  | begun attempt now tx phase ready past entered =>
      exact nobodyOwesIdle_begun sound.idle attempt now
  | lookedUp attempt reply deadline found =>
      intro free debtor owes
      exact sound.idle free debtor (owes_of_lookedUp owes)
  | wrote attempt deadline found =>
      obtain ⟨row, stored, holder, _⟩ := sound.holder_of_write inLease found
      intro free
      have lease := sound.lease
      change Idle w.row at free
      rw [stored] at free lease
      exact absurd free (not_idle_of_holder lease holder)
  | recorded attempt tx completion tries row phase found stored holder closing =>
      exact nobodyOwesIdle_recorded sound found stored holder
  | _ => exact sound.idle

theorem neverBlind_step (inLease : WritesInLease w action) (sound : LookupSound plan w)
    (taken : Transition plan w action next) : NeverBlind next.history := by
  cases taken with
  | wrote attempt deadline found =>
      obtain ⟨row, stored, holder, _⟩ := sound.holder_of_write inLease found
      have mayEnd : (w.phase attempt).MayEndDefinite := by rw [found]; trivial
      exact ⟨sound.cleared row attempt stored holder mayEnd, sound.blind⟩
  | _ => exact sound.blind

theorem lookupSound_step (lookup : ∀ attempt, (plan attempt).intent.mode = .lookup)
    (unflagged : ∀ attempt, (plan attempt).intent.Unflagged)
    (inLease : WritesInLease w action) (sound : LookupSound plan w)
    (taken : Transition plan w action next) : LookupSound plan next where
  traced := traced_step sound.traced taken
  writers := writersSound_step sound.traced sound.writers taken
  lease := leaseSound_step sound.lease taken
  newest := newestHolds_step sound.newest taken
  live := liveHolder_step sound.lease sound.live taken
  idle := nobodyOwesIdle_step inLease sound taken
  cleared := holderCleared_step lookup unflagged inLease sound taken
  blind := neverBlind_step inLease sound taken

theorem NeverBlind.before_write {history later before : List Event} {author : AttemptId}
    {time : Time} (blind : NeverBlind history)
    (split : history = later ++ .wrote author time :: before) : OnlyOwes author before := by
  induction later generalizing history with
  | nil =>
      subst split
      exact blind.1
  | cons event rest ih =>
      subst split
      apply ih _ rfl
      cases event with
      | wrote other time => exact blind.2
      | _ => exact blind

end MigrationPlatform.Delivery
