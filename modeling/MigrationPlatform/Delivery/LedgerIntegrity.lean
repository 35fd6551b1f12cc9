/-
The two ledger tables under any interleaving of `begin` and `finish`.

Here the attempts are only their calls: any number of them, on any operations,
with any timestamps and any overrides. The log of calls is what the tables are
compared with; no call reads it. What is assumed of the callers is that no
attempt id of a job is used for two begins, and that a finish reports what
`CallEndpoint` can report, so that a success comes with a status.
-/

import MigrationPlatform.Delivery.AttemptInvariants

namespace MigrationPlatform.Delivery

inductive LedgerCall
  | begin (input : BeginInput) (now : Time)
  | finish (op : OperationRef) (attempt : AttemptId) (mode : DeliveryMode)
      (completion : { completion : Completion // completion.Sound }) (now : Time)

inductive LedgerEvent
  | begun (input : BeginInput) (kind : DecisionKind)
  | finished (op : OperationRef) (attempt : AttemptId) (f : FinishInput)

structure LedgerState where
  ledger : Ledger
  log : List LedgerEvent

def LedgerState.empty : LedgerState :=
  { ledger := { operations := fun _ => none, operationAttempts := [] }, log := [] }

/-- A finish without the lease is rolled back and reported as lost. -/
def LedgerState.step (s : LedgerState) : LedgerCall → Option LedgerState
  | .begin input now => some
      { ledger := (s.ledger.begin input now).2
        log := .begun input (s.ledger.begin input now).1.decision.kind :: s.log }
  | .finish op attempt mode completion now =>
      match s.ledger.finish op attempt (completion.val.finishInput mode) now with
      | none => some s
      | some ledger => some
          { ledger := ledger
            log := .finished op attempt (completion.val.finishInput mode) :: s.log }

abbrev AttemptKey := Int × AttemptId

def BeginInput.attemptKey (input : BeginInput) : AttemptKey := (input.op.jobID, input.attemptID)

def begunKeys : List LedgerEvent → List AttemptKey
  | [] => []
  | .begun input _ :: rest => input.attemptKey :: begunKeys rest
  | .finished _ _ _ :: rest => begunKeys rest

def grantedKeys : List LedgerEvent → List AttemptKey
  | [] => []
  | .begun input kind :: rest =>
      if kind.grants = true then input.attemptKey :: grantedKeys rest else grantedKeys rest
  | .finished _ _ _ :: rest => grantedKeys rest

def grantedBegins (key : OperationKey) : List LedgerEvent → List AttemptId
  | [] => []
  | .begun input kind :: rest =>
      if input.op.key = key ∧ kind.grants = true then
        input.attemptID :: grantedBegins key rest
      else grantedBegins key rest
  | .finished _ _ _ :: rest => grantedBegins key rest

def FreshAttempt (s : LedgerState) : LedgerCall → Prop
  | .begin input _ => input.attemptKey ∉ begunKeys s.log
  | .finish _ _ _ _ _ => True

instance (s : LedgerState) : (call : LedgerCall) → Decidable (FreshAttempt s call)
  | .begin input _ => inferInstanceAs (Decidable (input.attemptKey ∉ begunKeys s.log))
  | .finish _ _ _ _ _ => isTrue trivial

variable {log : List LedgerEvent}

private theorem begunKeys_of_granted {id : AttemptKey}
    (granted : id ∈ grantedKeys log) : id ∈ begunKeys log := by
  induction log with
  | nil => cases granted
  | cons event rest ih =>
      cases event with
      | finished op attempt f => exact ih granted
      | begun input kind =>
          rw [grantedKeys] at granted
          split at granted
          · rcases List.mem_cons.mp granted with same | older
            · rw [same]
              exact List.mem_cons_self
            · exact List.mem_cons_of_mem _ (ih older)
          · exact List.mem_cons_of_mem _ (ih granted)

def OperationAttempt.key (entry : OperationAttempt) : OperationKey :=
  { jobID := entry.jobID, rowIndex := entry.rowIndex, stepIndex := entry.stepIndex }

def OperationAttempt.attemptKey (entry : OperationAttempt) : AttemptKey :=
  (entry.jobID, entry.attemptID)

/-- Entries of begins that were granted; the others are inserted closed. -/
def OperationAttempt.granted (entry : OperationAttempt) : Bool :=
  decide (entry.outcome ≠ some .replayed ∧ entry.outcome ≠ some .refused)

def numbering (key : OperationKey) (entries : List OperationAttempt) : List (AttemptId × Nat) :=
  (entries.filter (fun entry => decide (entry.key = key) && entry.granted)).map
    (fun entry => (entry.attemptID, entry.attemptNo))

variable {entries : List OperationAttempt}

private theorem insertAttempt_fresh {entry : OperationAttempt}
    (fresh : ∀ other ∈ entries, other.attemptKey ≠ entry.attemptKey) :
    insertAttempt entries entry = entries ++ [entry] := by
  apply if_neg
  intro taken
  obtain ⟨other, member, same⟩ := List.any_eq_true.mp taken
  apply fresh other member
  simpa [OperationAttempt.attemptKey] using same

structure OpensEntry (input : BeginInput) (result : BeginResult) (entry : OperationAttempt) :
    Prop where
  key : entry.key = input.op.key
  attemptKey : entry.attemptKey = input.attemptKey
  granted : entry.granted = result.decision.kind.grants
  number : result.decision.kind.grants = true → entry.attemptNo = result.snapshot.attempts + 1

theorem beginAttempt_spec (input : BeginInput) (now : Time) (result : BeginResult) :
    beginAttempt input now result = none ∧ result.decision.kind.grants = false ∨
      ∃ entry, beginAttempt input now result = some entry ∧ OpensEntry input result entry := by
  unfold beginAttempt
  cases kind : result.decision.kind with
  | busy => exact Or.inl ⟨rfl, rfl⟩
  | replay =>
      refine Or.inr ⟨_, rfl, rfl, rfl, ?_, ?_⟩ <;> rw [kind]
      · rfl
      · exact fun impossible => nomatch impossible
  | unresolved =>
      refine Or.inr ⟨_, rfl, rfl, rfl, ?_, ?_⟩ <;> rw [kind]
      · rfl
      · exact fun impossible => nomatch impossible
  | send =>
      refine Or.inr ⟨_, rfl, rfl, rfl, ?_, fun _ => rfl⟩
      rw [kind]
      rfl
  | lookupThenSend =>
      refine Or.inr ⟨_, rfl, rfl, rfl, ?_, fun _ => rfl⟩
      rw [kind]
      rfl

private theorem Completion.finishInput_outcome (mode : DeliveryMode) (completion : Completion) :
    (completion.finishInput mode).outcome ≠ .replayed ∧
      (completion.finishInput mode).outcome ≠ .refused := by
  cases completion with
  | unknown result =>
      by_cases manual : mode = .manual <;> simp [Completion.finishInput, manual]
  | _ => simp [Completion.finishInput]

def ReceiptFrom (key : OperationKey) (log : List LedgerEvent) (row : OperationRow) : Prop :=
  ∃ op attempt f, .finished op attempt f ∈ log ∧ op.key = key ∧ f.state = .succeeded ∧
    row.receiptStatus = some f.httpStatus ∧ row.receiptJson = nullIfJSON f.receipt

structure RowSound (key : OperationKey) (row : Option OperationRow) (log : List LedgerEvent) :
    Prop where
  lease : LeaseSound row
  holder : ∀ stored attempt, row = some stored → stored.leaseAttempt = some attempt →
    (key.jobID, attempt) ∈ grantedKeys log
  counter : (row.map OperationRow.attempts).getD 0 = (grantedBegins key log).length
  receipt : ∀ stored, row = some stored → stored.state = .succeeded → ReceiptFrom key log stored

structure EntriesSound (entries : List OperationAttempt) (log : List LedgerEvent) : Prop where
  begun : ∀ entry ∈ entries, entry.attemptKey ∈ begunKeys log
  granted : ∀ entry ∈ entries, entry.granted = true ↔ entry.attemptKey ∈ grantedKeys log
  numbered : ∀ key, numbering key entries = (grantedBegins key log).reverse.zipIdx 1

structure LedgerSound (s : LedgerState) : Prop where
  rows : ∀ key, RowSound key (s.ledger.operations key) s.log
  entries : EntriesSound s.ledger.operationAttempts s.log

theorem LedgerSound.empty : LedgerSound LedgerState.empty := by
  refine ⟨?_, ?_, ?_, ?_⟩
  · intro key
    refine ⟨leaseSound_none, ?_, rfl, ?_⟩
    · intro stored attempt impossible
      cases impossible
    · intro stored impossible
      cases impossible
  · intro entry member
    cases member
  · intro entry member
    cases member
  · intro key
    rfl

theorem ReceiptFrom.cons {key : OperationKey} {row : OperationRow}
    (event : LedgerEvent) (receipt : ReceiptFrom key log row) :
    ReceiptFrom key (event :: log) row := by
  obtain ⟨op, attempt, f, member, rest⟩ := receipt
  exact ⟨op, attempt, f, List.mem_cons_of_mem _ member, rest⟩

private theorem grantedKeys_mono (event : LedgerEvent) {id : AttemptKey}
    (granted : id ∈ grantedKeys log) : id ∈ grantedKeys (event :: log) := by
  cases event with
  | finished op attempt f => exact granted
  | begun input kind =>
      rw [grantedKeys]
      split
      · exact List.mem_cons_of_mem _ granted
      · exact granted

variable {row : Option OperationRow}

theorem RowSound.cons {key : OperationKey} {event : LedgerEvent} (sound : RowSound key row log)
    (ungranted : grantedBegins key (event :: log) = grantedBegins key log) :
    RowSound key row (event :: log) := by
  refine ⟨sound.lease, ?_, ?_, ?_⟩
  · intro stored attempt found holder
    exact grantedKeys_mono event (sound.holder stored attempt found holder)
  · rw [ungranted]
    exact sound.counter
  · intro stored found done
    exact (sound.receipt stored found done).cons event

theorem attempts_lockedRow (row : Option OperationRow) (input : BeginInput) :
    (lockedRow row input).attempts = (row.map OperationRow.attempts).getD 0 := by
  cases row <;> rfl

variable {input : BeginInput}

private theorem rowSound_granted {now : Time} (sound : RowSound input.op.key row log)
    (granted : (beginKind row input now).grants = true) :
    RowSound input.op.key (some (beginRow row input now).2)
      (.begun input (beginKind row input now) :: log) := by
  refine ⟨leaseSound_begin sound.lease input now, ?_, ?_, ?_⟩ <;> rw [beginRow_granted granted]
  · intro stored attempt found holder
    cases found
    cases holder
    rw [grantedKeys, if_pos granted]
    exact List.mem_cons_self
  · rw [grantedBegins, if_pos ⟨rfl, granted⟩]
    change (lockedRow row input).attempts + 1 = _
    rw [attempts_lockedRow, sound.counter]
    rfl
  · intro stored found done
    cases found
    cases done

private theorem rowSound_refused {now : Time} (sound : RowSound input.op.key row log)
    (refused : (beginKind row input now).grants = false) :
    RowSound input.op.key (some (beginRow row input now).2)
      (.begun input (beginKind row input now) :: log) := by
  have ungranted : grantedBegins input.op.key (.begun input (beginKind row input now) :: log) =
      grantedBegins input.op.key log := by
    rw [grantedBegins, if_neg (by simp [refused])]
  have kept := sound.cons ungranted
  have counted : (lockedRow row input).attempts =
      (grantedBegins input.op.key (.begun input (beginKind row input now) :: log)).length := by
    rw [attempts_lockedRow]
    exact kept.counter
  rcases beginRow_not_granted refused with same | ⟨_, stopped⟩
  · refine ⟨leaseSound_begin sound.lease input now, ?_, ?_, ?_⟩ <;> rw [same]
    · intro stored attempt found holder
      cases found
      cases row with
      | none => cases holder
      | some before => exact kept.holder before attempt rfl holder
    · exact counted
    · intro stored found done
      cases found
      cases row with
      | none => cases done
      | some before => exact kept.receipt before rfl done
  · refine ⟨leaseSound_begin sound.lease input now, ?_, ?_, ?_⟩ <;> rw [stopped]
    · intro stored attempt found holder
      cases found
      cases holder
    · exact counted
    · intro stored found done
      cases found
      cases done

private theorem rowSound_begin (now : Time) (sound : RowSound input.op.key row log) :
    RowSound input.op.key (some (beginRow row input now).2)
      (.begun input (beginKind row input now) :: log) := by
  cases granted : (beginKind row input now).grants with
  | true => exact rowSound_granted sound granted
  | false => exact rowSound_refused sound granted

private theorem grantedKeys_begun {kind : DecisionKind}
    {id : AttemptKey} (other : id ≠ input.attemptKey) :
    id ∈ grantedKeys (.begun input kind :: log) ↔ id ∈ grantedKeys log := by
  rw [grantedKeys]
  split <;> simp [other]

private theorem numbering_append (key : OperationKey) (entries : List OperationAttempt)
    (entry : OperationAttempt) :
    numbering key (entries ++ [entry]) = numbering key entries ++
      if entry.key = key ∧ entry.granted = true then [(entry.attemptID, entry.attemptNo)]
      else [] := by
  unfold numbering
  rw [List.filter_append, List.map_append]
  congr 1
  by_cases own : entry.key = key <;> cases granted : entry.granted <;>
    simp [own, granted]

private theorem numbered_begin {now : Time} {entry : OperationAttempt}
    (sound : EntriesSound entries log) (rowSound : RowSound input.op.key row log)
    (opens : OpensEntry input (beginRow row input now).1 entry) (key : OperationKey) :
    numbering key (entries ++ [entry]) =
      (grantedBegins key (.begun input (beginKind row input now) :: log)).reverse.zipIdx 1 := by
  rw [numbering_append, sound.numbered key, opens.key, opens.granted, grantedBegins]
  change _ ++ (if input.op.key = key ∧ (beginKind row input now).grants = true then _ else _) = _
  by_cases granted : input.op.key = key ∧ (beginKind row input now).grants = true
  · rw [if_pos granted, if_pos granted, List.reverse_cons, List.zipIdx_append]
    have number : entry.attemptNo = 1 + (grantedBegins key log).reverse.length := by
      rw [opens.number granted.2, List.length_reverse, ← granted.1, ← rowSound.counter,
        ← attempts_lockedRow row input]
      exact Nat.add_comm _ 1
    have author : entry.attemptID = input.attemptID := congrArg Prod.snd opens.attemptKey
    rw [number, author]
    rfl
  · rw [if_neg granted, if_neg granted, List.append_nil]

theorem entriesSound_begin {now : Time} {entry : OperationAttempt}
    (sound : EntriesSound entries log) (rowSound : RowSound input.op.key row log)
    (fresh : input.attemptKey ∉ begunKeys log)
    (opens : OpensEntry input (beginRow row input now).1 entry) :
    EntriesSound (entries ++ [entry]) (.begun input (beginKind row input now) :: log) := by
  refine ⟨?_, ?_, numbered_begin sound rowSound opens⟩
  · intro other member
    rcases List.mem_append.mp member with older | new
    · exact List.mem_cons_of_mem _ (sound.begun other older)
    · cases List.mem_singleton.mp new
      rw [opens.attemptKey]
      exact List.mem_cons_self
  · intro other member
    rcases List.mem_append.mp member with older | new
    · have different : other.attemptKey ≠ input.attemptKey := by
        intro same
        rw [← same] at fresh
        exact fresh (sound.begun other older)
      rw [grantedKeys_begun different]
      exact sound.granted other older
    · cases List.mem_singleton.mp new
      rw [opens.granted, opens.attemptKey, grantedKeys]
      change (beginKind row input now).grants = true ↔ _
      split
      · rename_i granted
        exact ⟨fun _ => List.mem_cons_self, fun _ => granted⟩
      · rename_i refused
        refine ⟨fun granted => absurd granted refused, ?_⟩
        intro granted
        exact absurd (begunKeys_of_granted granted) fresh

private theorem entriesSound_busy {kind : DecisionKind} (sound : EntriesSound entries log)
    (refused : kind.grants = false) : EntriesSound entries (.begun input kind :: log) := by
  constructor
  · intro entry member
    exact List.mem_cons_of_mem _ (sound.begun entry member)
  · intro entry member
    rw [grantedKeys, if_neg (by simp [refused])]
    exact sound.granted entry member
  · intro key
    rw [grantedBegins, if_neg (by simp [refused])]
    exact sound.numbered key

theorem ledgerSound_begin {s : LedgerState} (sound : LedgerSound s)
    {now : Time} (fresh : input.attemptKey ∉ begunKeys s.log) :
    LedgerSound
      { ledger := (s.ledger.begin input now).2
        log := .begun input (s.ledger.begin input now).1.decision.kind :: s.log } := by
  constructor
  · intro key
    change RowSound key (Function.update s.ledger.operations input.op.key _ key)
      (.begun input (beginKind (s.ledger.operations input.op.key) input now) :: s.log)
    by_cases own : key = input.op.key
    · subst own
      rw [Function.update_self]
      exact rowSound_begin now (sound.rows input.op.key)
    · rw [Function.update_of_ne own]
      apply (sound.rows key).cons
      rw [grantedBegins, if_neg (fun both => own both.1.symm)]
  · change EntriesSound (s.ledger.begin input now).2.operationAttempts
      (.begun input (beginKind (s.ledger.operations input.op.key) input now) :: s.log)
    simp only [Ledger.begin]
    rcases beginAttempt_spec input now (beginRow (s.ledger.operations input.op.key) input now).1
      with ⟨absent, refused⟩ | ⟨entry, opened, opens⟩
    · rw [absent]
      exact entriesSound_busy sound.entries refused
    · rw [opened]
      have unused : ∀ other ∈ s.ledger.operationAttempts,
          other.attemptKey ≠ entry.attemptKey := by
        intro other member same
        rw [opens.attemptKey] at same
        rw [← same] at fresh
        exact fresh (sound.entries.begun other member)
      change EntriesSound (insertAttempt s.ledger.operationAttempts entry) _
      rw [insertAttempt_fresh unused]
      exact entriesSound_begin sound.entries (sound.rows _) fresh opens

/-! ### One finish -/

private theorem rowSound_finish {op : OperationRef} {row : OperationRow}
    {attempt : AttemptId} {mode : DeliveryMode}
    {completion : Completion} (possible : completion.Sound)
    (sound : RowSound op.key (some row) log) :
    RowSound op.key (some (row.finished (completion.finishInput mode)))
      (.finished op attempt (completion.finishInput mode) :: log) := by
  refine ⟨leaseSound_finished row mode completion, ?_, sound.counter, ?_⟩
  · intro stored other found holder
    cases found
    cases holder
  · intro stored found done
    cases found
    refine ⟨op, attempt, _, List.mem_cons_self, rfl, done, ?_, ?_⟩
    · have status := possible.status_ne_zero done
      simp [OperationRow.finished, zeroToNil, status]
    · exact if_pos done

private theorem numbering_map (key : OperationKey) (entries : List OperationAttempt)
    (update : OperationAttempt → OperationAttempt)
    (same : ∀ entry ∈ entries, (update entry).key = entry.key ∧
      (update entry).granted = entry.granted ∧ (update entry).attemptID = entry.attemptID ∧
      (update entry).attemptNo = entry.attemptNo) :
    numbering key (entries.map update) = numbering key entries := by
  induction entries with
  | nil => rfl
  | cons entry rest ih =>
      have tail := ih (fun other member => same other (List.mem_cons_of_mem _ member))
      obtain ⟨sameKey, sameGranted, sameId, sameNo⟩ := same entry List.mem_cons_self
      unfold numbering at tail ⊢
      rw [List.map_cons, List.filter_cons, List.filter_cons, sameKey, sameGranted]
      split
      · rw [List.map_cons, List.map_cons, tail, sameId, sameNo]
      · exact tail

private theorem granted_finishAttempt
    (sound : EntriesSound entries log) {op : OperationRef} {attempt : AttemptId}
    (holds : (op.jobID, attempt) ∈ grantedKeys log) (mode : DeliveryMode)
    (completion : Completion) (now : Time) :
    ∀ entry ∈ entries,
      (finishAttempt op attempt (completion.finishInput mode) now entry).granted =
        entry.granted := by
  intro entry member
  unfold finishAttempt
  split
  · rename_i own
    have before : entry.granted = true := by
      rw [sound.granted entry member]
      change (entry.jobID, entry.attemptID) ∈ _
      rw [own.1, own.2]
      exact holds
    rw [before]
    simpa [OperationAttempt.granted] using completion.finishInput_outcome mode
  · rfl

theorem entriesSound_finish
    (sound : EntriesSound entries log) {op : OperationRef} {attempt : AttemptId}
    (holds : (op.jobID, attempt) ∈ grantedKeys log) (mode : DeliveryMode)
    (completion : Completion) (now : Time) :
    EntriesSound (entries.map (finishAttempt op attempt (completion.finishInput mode) now))
      (.finished op attempt (completion.finishInput mode) :: log) := by
  have same : ∀ entry : OperationAttempt,
      (finishAttempt op attempt (completion.finishInput mode) now entry).key = entry.key ∧
      (finishAttempt op attempt (completion.finishInput mode) now entry).attemptID =
        entry.attemptID ∧
      (finishAttempt op attempt (completion.finishInput mode) now entry).attemptNo =
        entry.attemptNo ∧
      (finishAttempt op attempt (completion.finishInput mode) now entry).attemptKey =
        entry.attemptKey := by
    intro entry
    unfold finishAttempt
    split <;> exact ⟨rfl, rfl, rfl, rfl⟩
  have granted := granted_finishAttempt sound holds mode completion now
  constructor
  · intro after member
    obtain ⟨entry, before, rfl⟩ := List.mem_map.mp member
    rw [(same entry).2.2.2]
    exact sound.begun entry before
  · intro after member
    obtain ⟨entry, before, rfl⟩ := List.mem_map.mp member
    rw [(same entry).2.2.2, granted entry before]
    exact sound.granted entry before
  · intro key
    rw [numbering_map key entries _ (fun entry member =>
      ⟨(same entry).1, granted entry member, (same entry).2.1, (same entry).2.2.1⟩)]
    exact sound.numbered key

theorem ledgerSound_finish {s : LedgerState} (sound : LedgerSound s) {op : OperationRef}
    {attempt : AttemptId} {mode : DeliveryMode} {completion : Completion} {now : Time}
    {after : Ledger} (possible : completion.Sound)
    (finished : s.ledger.finish op attempt (completion.finishInput mode) now = some after) :
    LedgerSound
      { ledger := after, log := .finished op attempt (completion.finishInput mode) :: s.log } := by
  unfold Ledger.finish at finished
  split at finished
  · cases finished
  · rename_i row recorded
    cases finished
    obtain ⟨before, stored, holder, rfl⟩ := finishRow_eq_some recorded
    have rowSound := sound.rows op.key
    rw [stored] at rowSound
    have holds : (op.jobID, attempt) ∈ grantedKeys s.log :=
      rowSound.holder before attempt rfl holder
    constructor
    · intro key
      change RowSound key (Function.update s.ledger.operations op.key _ key) _
      by_cases own : key = op.key
      · subst own
        rw [Function.update_self]
        exact rowSound_finish possible rowSound
      · rw [Function.update_of_ne own]
        exact (sound.rows key).cons rfl
    · exact entriesSound_finish sound.entries holds mode completion now

theorem ledgerSound_step {s next : LedgerState} {call : LedgerCall} (fresh : FreshAttempt s call)
    (sound : LedgerSound s) (taken : s.step call = some next) : LedgerSound next := by
  cases call with
  | begin input now =>
      cases taken
      exact ledgerSound_begin sound fresh
  | finish op attempt mode completion now =>
      simp only [LedgerState.step] at taken
      split at taken
      · cases taken
        exact sound
      · rename_i after finished
        cases taken
        exact ledgerSound_finish sound completion.property finished

structure LedgerIntegrity (s : LedgerState) : Prop where
  /-- A begin is granted only past the end of every lease on the operation. -/
  exclusive : ∀ input now, (s.ledger.begin input now).1.decision.kind.grants = true →
    ∀ row, s.ledger.operations input.op.key = some row → row.leaseAttempt ≠ none →
      (row.snapshot now).leaseExpired = true
  /-- Without the lease a finish changes nothing and is reported as lost. -/
  lost : ∀ op attempt mode completion now,
    (∀ row, s.ledger.operations op.key = some row → row.leaseAttempt ≠ some attempt) →
      s.ledger.finish op attempt (Completion.finishInput mode completion.val) now = none ∧
        s.step (.finish op attempt mode completion now) = some s
  counter : ∀ key, ((s.ledger.operations key).map OperationRow.attempts).getD 0 =
    (grantedBegins key s.log).length
  /-- The granted begins of an operation are numbered 1, 2, 3, … in their order. -/
  numbered : ∀ key, numbering key s.ledger.operationAttempts =
    (grantedBegins key s.log).reverse.zipIdx 1
  receipt : ∀ key row, s.ledger.operations key = some row → row.state = .succeeded →
    ReceiptFrom key s.log row

private theorem LedgerSound.exclusive {s : LedgerState} (sound : LedgerSound s)
    {now : Time} {row : OperationRow}
    (granted : (s.ledger.begin input now).1.decision.kind.grants = true)
    (stored : s.ledger.operations input.op.key = some row) (held : row.leaseAttempt ≠ none) :
    (row.snapshot now).leaseExpired = true := by
  have sending : row.state = .sending :=
    ((sound.rows input.op.key).lease row stored).mp (Option.isSome_iff_ne_none.mpr held)
  cases expired : (row.snapshot now).leaseExpired with
  | true => rfl
  | false =>
      change (beginKind (s.ledger.operations input.op.key) input now).grants = true at granted
      rw [stored, beginKind_busy sending expired] at granted
      cases granted

private theorem finish_lost {ledger : Ledger} {op : OperationRef} {attempt : AttemptId}
    (f : FinishInput) (now : Time)
    (other : ∀ row, ledger.operations op.key = some row → row.leaseAttempt ≠ some attempt) :
    ledger.finish op attempt f now = none := by
  have missed : finishRow (ledger.operations op.key) attempt f = none := by
    cases stored : ledger.operations op.key with
    | none => rfl
    | some row => exact if_neg (other row stored)
  unfold Ledger.finish
  rw [missed]

theorem ledger_integrity (calls : List LedgerCall) (s : LedgerState)
    (distinct : GuardedRuns.Obeys LedgerState.step FreshAttempt LedgerState.empty calls)
    (ran : GuardedRuns.run LedgerState.step LedgerState.empty calls = some s) :
    LedgerIntegrity s := by
  have sound : LedgerSound s :=
    GuardedRuns.invariant_of_obeys
      (fun _ _ _ fresh holds taken => ledgerSound_step fresh holds taken)
      calls _ s LedgerSound.empty distinct ran
  refine ⟨?_, ?_, fun key => (sound.rows key).counter, sound.entries.numbered, ?_⟩
  · intro input now granted row stored held
    exact sound.exclusive granted stored held
  · intro op attempt mode completion now other
    have missed := finish_lost (completion.val.finishInput mode) now other
    refine ⟨missed, ?_⟩
    simp only [LedgerState.step, missed]
  · intro key row stored done
    exact (sound.rows key).receipt row stored done

def takeoverRef : OperationRef := { jobID := 7, rowIndex := 3, stepIndex := 0, stepName := "main" }

def takeoverInput (attempt : AttemptId) : BeginInput :=
  { op := takeoverRef, attemptID := attempt, operationKey := "k1"
    intent :=
      { payloadSHA256 := "p1", mode := .idempotent, retentionHours := 24
        resend := false, confirmNotApplied := false } }

/-- The first holder is taken over past its lease and finishes too late. -/
def takeover : List LedgerCall :=
  [.begin (takeoverInput "run:1:1") 0, .begin (takeoverInput "run:1:2") operationLease,
    .finish takeoverRef "run:1:1" .idempotent ⟨.rejected { status := 409, wrote := true }, trivial⟩
      operationLease,
    .finish takeoverRef "run:1:2" .idempotent
      ⟨.succeeded { status := 201, body := "null", wrote := true }, Nat.le_add_right 200 1⟩
      operationLease]

theorem ledger_integrity_after_takeover :
    ∃ s, GuardedRuns.run LedgerState.step LedgerState.empty takeover = some s ∧
      numbering takeoverRef.key s.ledger.operationAttempts = [("run:1:1", 1), ("run:1:2", 2)] ∧
      LedgerIntegrity s := by
  refine ⟨_, rfl, by decide, ?_⟩
  exact ledger_integrity takeover _ (by decide) rfl

end MigrationPlatform.Delivery
