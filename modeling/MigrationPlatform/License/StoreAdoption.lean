/-
Whether a license that is placed in the store reaches the process.

A tick compares the stamp of the store file with the one it remembers, reads the
file, and remembers a stamp again. Where another writer replaces the file between
a read and the stamp that is remembered with it, the new file counts as read; and
a refreshed license overwrites whatever is there. Apart from these windows, a
complete tick after the replacement leaves a license of at least its precedence.
-/

import MigrationPlatform.License.Denial

namespace MigrationPlatform.License

open GuardedRuns

/-- The precedence of `should_adopt`: a commercial license is above a trial, and
of one kind the newer attestation is above the older. -/
def AtLeast (high low : LicenseDoc) : Prop :=
  (high.kind = .commercial ∧ low.kind = .trial) ∨
    (high.kind = low.kind ∧ low.issuedAt.getD 0 ≤ high.issuedAt.getD 0)

theorem AtLeast.refl (doc : LicenseDoc) : AtLeast doc doc := .inr ⟨rfl, Int.le_refl _⟩

theorem AtLeast.trans {high middle low : LicenseDoc} (upper : AtLeast high middle)
    (lower : AtLeast middle low) : AtLeast high low := by
  rcases upper with ⟨commercial, trial⟩ | ⟨kind, newer⟩
  · rcases lower with ⟨impossible, _⟩ | ⟨same, _⟩
    · rw [trial] at impossible
      cases impossible
    · exact .inl ⟨commercial, same ▸ trial⟩
  · rcases lower with ⟨commercial, trial⟩ | ⟨same, older⟩
    · exact .inl ⟨kind.trans commercial, trial⟩
    · exact .inr ⟨kind.trans same, Int.le_trans older newer⟩

theorem atLeast_of_not_adopted {current : LicenseState} {doc : LicenseDoc} {fp : String}
    {now : Int} (usable : validity doc fp now = .ok ())
    (kept : shouldAdopt current doc fp now = false) :
    ∃ cur, current.doc = some cur ∧ AtLeast cur doc := by
  unfold shouldAdopt at kept
  cases held : current.doc with
  | none =>
      rw [held] at kept
      cases kept
  | some cur =>
      refine ⟨cur, rfl, ?_⟩
      have fine : ¬(validity doc fp now).isOk = false := by
        rw [usable]
        nofun
      simp only [held, if_neg fine] at kept
      split at kept
      · rename_i same
        rw [same]
        exact AtLeast.refl doc
      · split at kept
        · cases kept
        · cases isKind : cur.kind with
          | trial =>
              cases candidate : doc.kind with
              | trial =>
                  simp only [isKind, candidate, decide_eq_false_iff_not] at kept
                  refine .inr ⟨isKind.trans candidate.symm, ?_⟩
                  omega
              | commercial =>
                  simp only [isKind, candidate] at kept
                  cases kept
          | commercial =>
              cases candidate : doc.kind with
              | trial => exact .inl ⟨isKind, candidate⟩
              | commercial =>
                  simp only [isKind, candidate, decide_eq_false_iff_not] at kept
                  refine .inr ⟨isKind.trans candidate.symm, ?_⟩
                  omega

/-! ### Replacements -/

/-- Another writer has replaced the file since this process read or wrote it. -/
def replacedSince : List Event → Bool
  | [] => false
  | .placed _ :: _ => true
  | .read :: _ => false
  | .wrote :: _ => false
  | _ :: earlier => replacedSince earlier

def lastPlaced : List Event → Option LicenseDoc
  | [] => none
  | .placed content :: _ => content
  | _ :: earlier => lastPlaced earlier

def TickPhase.stamps : TickPhase → List Nat
  | .statted stamp => [stamp]
  | .reading stamp _ => [stamp]
  | .read stamp _ _ => [stamp]
  | .checked stamp _ none => [stamp]
  | .checked stamp _ (some (_, loadedStamp)) => stamp :: loadedStamp.toList
  | .stamped _ _ stamp => stamp.toList
  | _ => []

/-- The stamp that is recorded at the end of the phase if nothing is adopted. -/
def TickPhase.writes : TickPhase → Option Nat
  | .read stamp _ _ => some stamp
  | .checked stamp _ _ => some stamp
  | .stamped _ _ stamp => stamp
  | _ => none

def TickPhase.holdsContent : TickPhase → Bool
  | .read _ _ _ => true
  | .checked _ _ _ => true
  | _ => false

def TickPhase.aboutToRead : TickPhase → Bool
  | .statted _ => true
  | .reading _ _ => true
  | _ => false

/-- What the task has read, has asked for or is about to store is not below. -/
def TickPhase.Above (target : LicenseDoc) : TickPhase → Prop
  | .read _ _ content => ∃ doc, content = some doc ∧ AtLeast doc target
  | .checked _ _ loaded =>
      ∃ doc loadedStamp, loaded = some (doc, loadedStamp) ∧ AtLeast doc target
  | .awaiting asked => AtLeast asked target
  | .refreshed _ doc => AtLeast doc target
  | .renamed _ doc => AtLeast doc target
  | .stamped _ doc _ => AtLeast doc target
  | _ => True

section Runs

variable (install : Install)

/-- The windows are closed: what is adopted carries the stamp of the file that was
read, and no file is overwritten or stamped unread. The documents placed are
usable, none is below the one before it, and the server answers a heartbeat with
the license that it was asked for, or not at all. -/
def Undisturbed (w : World) : Action → Prop
  | .place content =>
      ∃ doc, content = some doc ∧ ∀ earlier, lastPlaced w.log = some earlier → AtLeast doc earlier
  | .remove => False
  | .tickCompare keyLoads => keyLoads = true
  | .tickVerify now =>
      ∀ stamp current doc, w.tick = .read stamp current (some doc) →
        loadAndVerify install.fingerprint (some doc) now = some doc
  | .tickAdopt now =>
      ∀ stamp current doc loadedStamp, w.tick = .checked stamp current (some (doc, loadedStamp)) →
        validity doc install.fingerprint now = .ok () ∧
          (replacedSince w.log = true →
            shouldAdopt current doc install.fingerprint now = true → loadedStamp ≠ w.fileStamp)
  | .answer reply now =>
      ∀ asked, w.tick = .awaiting asked →
        match heartbeatOnce install.fingerprint reply now with
        | .refreshed doc => AtLeast doc asked
        | .denied _ _ => False
        | .unavailable _ => True
  | .tickRename works => works = true → replacedSince w.log = false
  | .tickStamp => replacedSince w.log = false
  | .trialBegin _ => False
  | .trialAnswer _ _ _ => False
  | .trialRename _ _ => False
  | .trialStamp _ => False
  | .trialActivate _ => False
  | _ => True

/-- Every remembered stamp is older than the next one, and the task compares the
file with the license that is active. -/
structure Orderly (w : World) : Prop where
  recorded : ∀ stamp, w.state.storeStamp = some stamp → stamp < w.nextStamp
  filed : ∀ stamp, w.fileStamp = some stamp → stamp < w.nextStamp
  held : ∀ stamp ∈ w.tick.stamps, stamp < w.nextStamp
  snapshots : ∀ current, w.tick.snapshot = some current → current.doc = w.state.doc

/-- The file holds a document of at least the precedence of `target`, and the
process has not read it. -/
structure Unread (target : LicenseDoc) (w : World) : Prop where
  file : ∃ doc stamp, w.store = some { content := some doc, stamp := stamp } ∧ AtLeast doc target
  latest : ∃ doc, lastPlaced w.log = some doc ∧ AtLeast doc target
  replaced : replacedSince w.log = true
  unrecorded : w.state.storeStamp ≠ w.fileStamp
  unwritten : w.tick.writes ≠ w.fileStamp

/-- The process has read a document of at least the precedence of `target`, and
what it holds or has activated is not below. -/
structure Taken (target : LicenseDoc) (w : World) : Prop where
  file : ∃ doc stamp, w.store = some { content := some doc, stamp := stamp } ∧ AtLeast doc target
  latest : ∃ doc, lastPlaced w.log = some doc ∧ AtLeast doc target
  phase : w.tick.Above target
  active : w.tick.holdsContent = false → ∃ doc, w.state.doc = some doc ∧ AtLeast doc target

def OnItsWay (w : World) : Prop :=
  (∃ stamp, w.tick = .statted stamp ∧ w.state.storeStamp ≠ some stamp) ∨
    ∃ stamp current, w.tick = .reading stamp current

variable {install} {w next : World} {action : Action} {target : LicenseDoc}

theorem fileStamp_of_store {doc : Option LicenseDoc} {stamp : Nat}
    (store : w.store = some { content := doc, stamp := stamp }) : w.fileStamp = some stamp := by
  unfold World.fileStamp
  rw [store]
  rfl

theorem Orderly.of_same (orderly : Orderly w)
    (recorded : next.state.storeStamp = w.state.storeStamp) (store : next.store = w.store)
    (counter : next.nextStamp = w.nextStamp)
    (held : ∀ stamp ∈ next.tick.stamps, stamp ∈ w.tick.stamps ∨ w.fileStamp = some stamp)
    (snapshots : ∀ current, next.tick.snapshot = some current → current.doc = next.state.doc) :
    Orderly next := by
  constructor
  · rw [recorded, counter]
    exact orderly.recorded
  · unfold World.fileStamp
    rw [store, counter]
    exact orderly.filed
  · intro stamp member
    rw [counter]
    rcases held stamp member with before | file
    · exact orderly.held stamp before
    · exact orderly.filed stamp file
  · exact snapshots

theorem Orderly.of_forgotten (orderly : Orderly w)
    (recorded : ∀ stamp, next.state.storeStamp = some stamp → stamp < w.nextStamp)
    (store : next.store = w.store) (counter : next.nextStamp = w.nextStamp)
    (held : next.tick.stamps = []) (snapshots : next.tick.snapshot = none) : Orderly next := by
  constructor
  · rw [counter]
    exact recorded
  · unfold World.fileStamp
    rw [store, counter]
    exact orderly.filed
  · rw [held]
    intro stamp member
    cases member
  · rw [snapshots]
    intro current seen
    cases seen

theorem Orderly.write (orderly : Orderly w) (content : Option LicenseDoc) (event : Event)
    {tick : TickPhase} (held : ∀ stamp ∈ tick.stamps, stamp ∈ w.tick.stamps)
    (snapshots : ∀ current, tick.snapshot = some current → w.tick.snapshot = some current) :
    Orderly { w.write content event with tick := tick } := by
  constructor
  · intro stamp recorded
    exact Nat.lt_succ_of_lt (orderly.recorded stamp recorded)
  · intro stamp filed
    cases filed
    exact Nat.lt_succ_self _
  · intro stamp member
    exact Nat.lt_succ_of_lt (orderly.held stamp (held stamp member))
  · intro current seen
    exact orderly.snapshots current (snapshots current seen)

theorem Orderly.step (orderly : Orderly w) (guarded : Undisturbed install w action)
    (taken : w.step install action = some next) : Orderly next := by
  have held := orderly.held
  cases step_move taken with
  | placed content => exact orderly.write content (.placed content) (fun _ => id) (fun _ => id)
  | removed => exact guarded.elim
  | missing phase absent => exact orderly.of_forgotten orderly.recorded rfl rfl rfl rfl
  | statted stamp phase found =>
      refine orderly.of_same rfl rfl rfl ?_ ?_
      · intro other member
        cases List.mem_singleton.mp member
        exact .inr found
      · intro current seen
        cases seen
  | unchanged stamp keyLoads phase skipped =>
      exact orderly.of_forgotten orderly.recorded rfl rfl rfl rfl
  | compared stamp keyLoads phase changed =>
      refine orderly.of_same rfl rfl rfl ?_ ?_
      · intro other member
        rw [phase]
        exact .inl member
      · intro current seen
        cases seen
        rfl
  | read stamp current phase =>
      have snapshots := orderly.snapshots
      rw [phase] at snapshots
      refine orderly.of_same rfl rfl rfl ?_ snapshots
      intro other member
      rw [phase]
      exact .inl member
  | verified stamp current content now phase =>
      have snapshots := orderly.snapshots
      rw [phase] at snapshots
      refine orderly.of_same rfl rfl rfl ?_ snapshots
      intro other member
      rw [phase]
      cases loaded : loadAndVerify install.fingerprint content now with
      | none =>
          rw [loaded] at member
          exact .inl member
      | some doc =>
          rw [loaded] at member
          rcases List.mem_cons.mp member with same | file
          · exact .inl (List.mem_singleton.mpr same)
          · exact .inr (Option.mem_toList.mp file)
  | adopted stamp current doc loadedStamp now phase better =>
      refine orderly.of_forgotten ?_ rfl rfl rfl rfl
      intro other recorded
      rw [phase] at held
      apply held
      exact List.mem_cons_of_mem _ (Option.mem_toList.mpr recorded)
  | kept stamp current loaded now phase worse =>
      refine orderly.of_forgotten ?_ rfl rfl rfl rfl
      intro other recorded
      cases recorded
      rw [phase] at held
      apply held
      cases loaded with
      | none => exact List.mem_cons_self
      | some pair => exact List.mem_cons_self
  | notDue now keyLoads attempt err phase =>
      exact orderly.of_forgotten orderly.recorded rfl rfl rfl rfl
  | asked now keyLoads doc phase active due =>
      exact orderly.of_forgotten orderly.recorded rfl rfl rfl rfl
  | refreshed asked doc reply now phase outcome =>
      exact orderly.of_forgotten orderly.recorded rfl rfl rfl rfl
  | denied asked reply now status reason phase outcome =>
      exact orderly.of_forgotten orderly.recorded rfl rfl rfl rfl
  | unavailable asked reply now err phase outcome =>
      exact orderly.of_forgotten orderly.recorded rfl rfl rfl rfl
  | renamed asked doc phase =>
      refine orderly.write (some doc) .wrote ?_ ?_
      · intro stamp member
        cases member
      · intro current seen
        cases seen
  | notRenamed asked doc phase => exact orderly.of_forgotten orderly.recorded rfl rfl rfl rfl
  | stamped asked doc phase =>
      refine orderly.of_same rfl rfl rfl ?_ ?_
      · intro stamp member
        exact .inr (Option.mem_toList.mp member)
      · intro current seen
        cases seen
  | recorded asked doc stamp phase =>
      refine orderly.of_forgotten ?_ rfl rfl rfl rfl
      intro other recorded
      rw [phase] at held
      cases stamp with
      | none => exact orderly.recorded other recorded
      | some found =>
          cases recorded
          exact held other List.mem_cons_self
  | trialBegun now => exact guarded.elim
  | trialAnswered index file now phase => exact guarded.elim
  | trialRenamed index doc phase => exact guarded.elim
  | trialNotRenamed index => exact guarded.elim
  | trialStamped index doc phase => exact guarded.elim
  | trialActivated index doc stamp phase => exact guarded.elim

theorem Unread.of_recorded (unread : Unread target w)
    (recorded : next.state.storeStamp ≠ w.fileStamp) (store : next.store = w.store)
    (latest : lastPlaced next.log = lastPlaced w.log)
    (replaced : replacedSince next.log = replacedSince w.log)
    (unwritten : next.tick.writes = none ∨ next.tick.writes = w.tick.writes) :
    Unread target next := by
  obtain ⟨doc, stamp, file, above⟩ := unread.file
  have stamps : next.fileStamp = w.fileStamp := by
    unfold World.fileStamp
    rw [store]
  constructor
  · rw [store]
    exact unread.file
  · rw [latest]
    exact unread.latest
  · rw [replaced]
    exact unread.replaced
  · rw [stamps]
    exact recorded
  · rw [stamps]
    rcases unwritten with nothing | same
    · rw [nothing, fileStamp_of_store file]
      exact (Option.some_ne_none stamp).symm
    · rw [same]
      exact unread.unwritten

theorem Unread.of_same (unread : Unread target w)
    (recorded : next.state.storeStamp = w.state.storeStamp) (store : next.store = w.store)
    (latest : lastPlaced next.log = lastPlaced w.log)
    (replaced : replacedSince next.log = replacedSince w.log)
    (unwritten : next.tick.writes = none ∨ next.tick.writes = w.tick.writes) :
    Unread target next := by
  refine unread.of_recorded ?_ store latest replaced unwritten
  rw [recorded]
  exact unread.unrecorded

theorem Undisturbed.above {content : Option LicenseDoc}
    (guarded : Undisturbed install w (.place content))
    (latest : ∃ doc, lastPlaced w.log = some doc ∧ AtLeast doc target) :
    ∃ doc, content = some doc ∧ AtLeast doc target := by
  obtain ⟨doc, same, ordered⟩ := guarded
  obtain ⟨earlier, last, above⟩ := latest
  exact ⟨doc, same, (ordered earlier last).trans above⟩

private theorem writes_mem_stamps {phase : TickPhase} {stamp : Nat}
    (writes : phase.writes = some stamp) :
    stamp ∈ phase.stamps := by
  cases phase with
  | read found current content =>
      cases writes
      exact List.mem_cons_self
  | checked found current loaded =>
      cases writes
      cases loaded with
      | none => exact List.mem_cons_self
      | some pair => exact List.mem_cons_self
  | stamped asked doc found =>
      cases writes
      exact List.mem_cons_self
  | _ => cases writes

theorem unread_of_placed (orderly : Orderly w) {doc : LicenseDoc} (above : AtLeast doc target) :
    Unread target (w.write (some doc) (.placed (some doc))) := by
  refine ⟨⟨doc, w.nextStamp, rfl, above⟩, ⟨doc, rfl, above⟩, rfl, ?_, ?_⟩
  · intro same
    exact Nat.lt_irrefl _ (orderly.recorded w.nextStamp same)
  · intro same
    exact Nat.lt_irrefl _ (orderly.held w.nextStamp (writes_mem_stamps same))

theorem Unread.step (unread : Unread target w) (orderly : Orderly w)
    (guarded : Undisturbed install w action) (waits : action ≠ .tickRead)
    (taken : w.step install action = some next) : Unread target next := by
  have unwritten := unread.unwritten
  have replaced := unread.replaced
  cases step_move taken with
  | placed content =>
      obtain ⟨doc, same, above⟩ := guarded.above unread.latest
      subst same
      exact unread_of_placed orderly above
  | removed => exact guarded.elim
  | missing phase absent => exact unread.of_same rfl rfl rfl rfl (.inl rfl)
  | statted stamp phase found => exact unread.of_same rfl rfl rfl rfl (.inl rfl)
  | unchanged stamp keyLoads phase skipped => exact unread.of_same rfl rfl rfl rfl (.inl rfl)
  | compared stamp keyLoads phase changed => exact unread.of_same rfl rfl rfl rfl (.inl rfl)
  | read stamp current phase => exact absurd rfl waits
  | verified stamp current content now phase =>
      refine unread.of_same rfl rfl rfl rfl (.inr ?_)
      rw [phase]
      rfl
  | adopted stamp current doc loadedStamp now phase better =>
      have other := (guarded stamp current doc loadedStamp phase).2 replaced better
      exact unread.of_recorded other rfl rfl rfl (.inl rfl)
  | kept stamp current loaded now phase worse =>
      rw [phase] at unwritten
      exact unread.of_recorded unwritten rfl rfl rfl (.inl rfl)
  | notDue now keyLoads attempt err phase => exact unread.of_same rfl rfl rfl rfl (.inl rfl)
  | asked now keyLoads doc phase active due => exact unread.of_same rfl rfl rfl rfl (.inl rfl)
  | refreshed asked doc reply now phase outcome =>
      exact unread.of_same rfl rfl rfl rfl (.inl rfl)
  | denied asked reply now status reason phase outcome =>
      exact unread.of_same rfl rfl rfl rfl (.inl rfl)
  | unavailable asked reply now err phase outcome =>
      exact unread.of_same rfl rfl rfl rfl (.inl rfl)
  | renamed asked doc phase =>
      rw [guarded rfl] at replaced
      cases replaced
  | notRenamed asked doc phase => exact unread.of_same rfl rfl rfl rfl (.inl rfl)
  | stamped asked doc phase =>
      rw [show replacedSince w.log = false from guarded] at replaced
      cases replaced
  | recorded asked doc stamp phase =>
      rw [phase] at unwritten
      refine unread.of_recorded ?_ rfl rfl rfl (.inl rfl)
      cases stamp with
      | none => exact unread.unrecorded
      | some found => exact unwritten
  | trialBegun now => exact guarded.elim
  | trialAnswered index file now phase => exact guarded.elim
  | trialRenamed index doc phase => exact guarded.elim
  | trialNotRenamed index => exact guarded.elim
  | trialStamped index doc phase => exact guarded.elim
  | trialActivated index doc stamp phase => exact guarded.elim

theorem Unread.read (unread : Unread target w) {stamp : Nat} {current : LicenseState} :
    Taken target
      { w with
        tick := .read stamp current (w.store.bind StoreFile.content)
        log := .read :: w.log } := by
  obtain ⟨doc, found, file, above⟩ := unread.file
  refine ⟨unread.file, unread.latest, ⟨doc, ?_, above⟩, ?_⟩
  · rw [file]
    rfl
  · intro free
    cases free

theorem Taken.of_same (took : Taken target w) (doc : next.state.doc = w.state.doc)
    (store : next.store = w.store) (latest : lastPlaced next.log = lastPlaced w.log)
    (free : w.tick.holdsContent = false) (phase : next.tick.Above target) : Taken target next := by
  refine ⟨?_, ?_, phase, ?_⟩
  · rw [store]
    exact took.file
  · rw [latest]
    exact took.latest
  · intro _free
    rw [doc]
    exact took.active free

theorem Taken.step (took : Taken target w) (orderly : Orderly w)
    (guarded : Undisturbed install w action) (taken : w.step install action = some next) :
    Taken target next := by
  have held := took.phase
  have active := took.active
  cases step_move taken with
  | placed content =>
      obtain ⟨doc, same, above⟩ := guarded.above took.latest
      subst same
      exact ⟨⟨doc, w.nextStamp, rfl, above⟩, ⟨doc, rfl, above⟩, held, active⟩
  | removed => exact guarded.elim
  | missing phase absent =>
      rw [phase] at active
      exact ⟨took.file, took.latest, trivial, active⟩
  | statted stamp phase found =>
      rw [phase] at active
      exact ⟨took.file, took.latest, trivial, active⟩
  | unchanged stamp keyLoads phase skipped =>
      rw [phase] at active
      exact ⟨took.file, took.latest, trivial, active⟩
  | compared stamp keyLoads phase changed =>
      rw [phase] at active
      exact ⟨took.file, took.latest, trivial, active⟩
  | read stamp current phase =>
      obtain ⟨doc, found, file, above⟩ := took.file
      refine ⟨took.file, took.latest, ⟨doc, ?_, above⟩, ?_⟩
      · rw [file]
        rfl
      · intro free
        cases free
  | verified stamp current content now phase =>
      rw [phase] at held
      obtain ⟨doc, same, above⟩ := held
      subst same
      have loads := guarded stamp current doc phase
      refine ⟨took.file, took.latest, ⟨doc, w.fileStamp, ?_, above⟩, ?_⟩
      · rw [loads]
        rfl
      · intro free
        cases free
  | adopted stamp current doc loadedStamp now phase better =>
      rw [phase] at held
      obtain ⟨found, foundStamp, same, above⟩ := held
      cases same
      exact ⟨took.file, took.latest, trivial, fun _ => ⟨doc, rfl, above⟩⟩
  | kept stamp current loaded now phase worse =>
      rw [phase] at held
      obtain ⟨doc, loadedStamp, same, above⟩ := held
      subst same
      have usable := (guarded stamp current doc loadedStamp phase).1
      obtain ⟨cur, isCurrent, higher⟩ :=
        atLeast_of_not_adopted usable (worse doc loadedStamp rfl)
      have seen := orderly.snapshots current (by rw [phase]; rfl)
      refine ⟨took.file, took.latest, trivial, fun _ => ⟨cur, ?_, higher.trans above⟩⟩
      exact seen.symm.trans isCurrent
  | notDue now keyLoads attempt err phase =>
      exact took.of_same rfl rfl rfl (by rw [phase]; rfl) trivial
  | asked now keyLoads doc phase isActive due =>
      rw [phase] at active
      obtain ⟨cur, isCurrent, above⟩ := active rfl
      have same : cur = doc := Option.some.inj (isCurrent.symm.trans isActive)
      subst same
      exact took.of_same rfl rfl rfl (by rw [phase]; rfl) above
  | refreshed asked doc reply now phase outcome =>
      rw [phase] at held
      have higher := guarded asked phase
      rw [outcome] at higher
      exact took.of_same rfl rfl rfl (by rw [phase]; rfl) (AtLeast.trans higher held)
  | denied asked reply now status reason phase outcome =>
      have impossible := guarded asked phase
      rw [outcome] at impossible
      exact impossible.elim
  | unavailable asked reply now err phase outcome =>
      exact took.of_same rfl rfl rfl (by rw [phase]; rfl) trivial
  | renamed asked doc phase =>
      rw [phase] at held active
      exact ⟨⟨doc, w.nextStamp, rfl, held⟩, took.latest, held, active⟩
  | notRenamed asked doc phase =>
      rw [phase] at held
      exact took.of_same rfl rfl rfl (by rw [phase]; rfl) held
  | stamped asked doc phase =>
      rw [phase] at held
      exact took.of_same rfl rfl rfl (by rw [phase]; rfl) held
  | recorded asked doc stamp phase =>
      rw [phase] at held
      exact ⟨took.file, took.latest, trivial, fun _ => ⟨doc, rfl, held⟩⟩
  | trialBegun now => exact guarded.elim
  | trialAnswered index file now phase => exact guarded.elim
  | trialRenamed index doc phase => exact guarded.elim
  | trialNotRenamed index => exact guarded.elim
  | trialStamped index doc phase => exact guarded.elim
  | trialActivated index doc stamp phase => exact guarded.elim

/-! ### Whole runs -/

def Pending (target : LicenseDoc) (w : World) : Prop :=
  Orderly w ∧ (Unread target w ∨ Taken target w)

theorem Pending.step (pending : Pending target w) (guarded : Undisturbed install w action)
    (taken : w.step install action = some next) : Pending target next := by
  obtain ⟨orderly, unread | took⟩ := pending
  · refine ⟨orderly.step guarded taken, ?_⟩
    by_cases reads : action = .tickRead
    · subst reads
      cases step_move taken with
      | read stamp current phase => exact .inr unread.read
    · exact .inl (unread.step orderly guarded reads taken)
  · exact ⟨orderly.step guarded taken, .inr (took.step orderly guarded taken)⟩

/-- From the first step of a tick on, a placed file is about to be read or taken. -/
def Reached (target : LicenseDoc) (w : World) : Prop :=
  Orderly w ∧ ((Unread target w ∧ OnItsWay w) ∨ Taken target w)

private theorem Reached.of_tickStat (pending : Pending target w)
    (guarded : Undisturbed install w .tickStat) (taken : w.step install .tickStat = some next) :
    Reached target next := by
  obtain ⟨orderly, unread | took⟩ := pending
  · refine ⟨orderly.step guarded taken, .inl ⟨unread.step orderly guarded (by decide) taken, ?_⟩⟩
    cases step_move taken with
    | missing phase absent =>
        obtain ⟨doc, stamp, file, _⟩ := unread.file
        rw [fileStamp_of_store file] at absent
        cases absent
    | statted stamp phase found =>
        refine .inl ⟨stamp, rfl, ?_⟩
        rw [← found]
        exact unread.unrecorded
  · exact ⟨orderly.step guarded taken, .inr (took.step orderly guarded taken)⟩

theorem Reached.step (reached : Reached target w) (guarded : Undisturbed install w action)
    (taken : w.step install action = some next) : Reached target next := by
  obtain ⟨orderly, ⟨unread, onItsWay⟩ | took⟩ := reached
  · refine ⟨orderly.step guarded taken, ?_⟩
    have there : w.tick.aboutToRead = true := by
      rcases onItsWay with ⟨stamp, statted, _⟩ | ⟨stamp, current, reading⟩
      · rw [statted]
        rfl
      · rw [reading]
        rfl
    by_cases reads : action = .tickRead
    · subst reads
      cases step_move taken with
      | read stamp current phase => exact .inr unread.read
    · refine .inl ⟨unread.step orderly guarded reads taken, ?_⟩
      cases step_move taken with
      | placed content => exact onItsWay
      | removed => exact guarded.elim
      | unchanged stamp keyLoads phase skipped =>
          rcases onItsWay with ⟨found, statted, changed⟩ | ⟨found, current, reading⟩
          · rw [phase] at statted
            cases statted
            rcases skipped with same | unloaded
            · exact absurd same changed
            · rw [show keyLoads = true from guarded] at unloaded
              cases unloaded
          · rw [phase] at reading
            cases reading
      | compared stamp keyLoads phase changed => exact .inr ⟨stamp, w.state, rfl⟩
      | read stamp current phase => exact absurd rfl reads
      | missing phase absent =>
          rw [phase] at there
          cases there
      | statted stamp phase found =>
          rw [phase] at there
          cases there
      | verified stamp current content now phase =>
          rw [phase] at there
          cases there
      | adopted stamp current doc loadedStamp now phase better =>
          rw [phase] at there
          cases there
      | kept stamp current loaded now phase worse =>
          rw [phase] at there
          cases there
      | notDue now keyLoads attempt err phase =>
          rw [phase] at there
          cases there
      | asked now keyLoads doc phase active due =>
          rw [phase] at there
          cases there
      | refreshed asked doc reply now phase outcome =>
          rw [phase] at there
          cases there
      | denied asked reply now status reason phase outcome =>
          rw [phase] at there
          cases there
      | unavailable asked reply now err phase outcome =>
          rw [phase] at there
          cases there
      | renamed asked doc phase =>
          rw [phase] at there
          cases there
      | notRenamed asked doc phase =>
          rw [phase] at there
          cases there
      | stamped asked doc phase =>
          rw [phase] at there
          cases there
      | recorded asked doc stamp phase =>
          rw [phase] at there
          cases there
      | trialBegun now => exact guarded.elim
      | trialAnswered index file now phase => exact guarded.elim
      | trialRenamed index doc phase => exact guarded.elim
      | trialNotRenamed index => exact guarded.elim
      | trialStamped index doc phase => exact guarded.elim
      | trialActivated index doc stamp phase => exact guarded.elim
  · exact ⟨orderly.step guarded taken, .inr (took.step orderly guarded taken)⟩

/-- A license that is placed in the store while the windows are closed is matched
or exceeded by the active one after every complete tick that begins later. -/
theorem placed_license_kept {state : LicenseState} {store : Option StoreFile} {stamp : Nat}
    {before between tick : List Action} {reached begun final : World} {target : LicenseDoc}
    (recorded : ∀ found, state.storeStamp = some found → found < stamp)
    (filed : ∀ file, store = some file → file.stamp < stamp)
    (ranBefore : run (World.step install) { state := state, store := store, nextStamp := stamp }
      before = some reached)
    (ranBetween : run (World.step install)
      (reached.write (some target) (.placed (some target))) between = some begun)
    (ranTick : run (World.step install) begun (.tickStat :: tick) = some final)
    (ended : final.tick = .idle)
    (undisturbed : Obeys (World.step install) (Undisturbed install)
      { state := state, store := store, nextStamp := stamp }
      (before ++ .place (some target) :: (between ++ .tickStat :: tick))) :
    ∃ doc, final.state.doc = some doc ∧ AtLeast doc target := by
  have initial : Orderly { state := state, store := store, nextStamp := stamp } := by
    refine ⟨recorded, ?_, ?_, ?_⟩
    · intro found is
      obtain ⟨file, same, stamped⟩ := Option.map_eq_some_iff.mp is
      rw [← stamped]
      exact filed file same
    · intro found member
      cases member
    · intro current seen
      cases seen
  have orderly : Orderly reached := by
    refine invariant_of_obeys ?_ before _ reached initial undisturbed.left ranBefore
    intro w action next guarded holds taken
    exact holds.step guarded taken
  have atPlacement := undisturbed.right ranBefore
  have placing : reached.step install (.place (some target)) =
      some (reached.write (some target) (.placed (some target))) := rfl
  have afterwards := atPlacement.tail placing
  have placed : Pending target (reached.write (some target) (.placed (some target))) :=
    ⟨orderly.step atPlacement.1 placing, .inl (unread_of_placed orderly (AtLeast.refl target))⟩
  have pending : Pending target begun := by
    refine invariant_of_obeys ?_ between _ begun placed afterwards.left ranBetween
    intro w action next guarded holds taken
    exact holds.step guarded taken
  have during := afterwards.right ranBetween
  obtain ⟨statted, taken, ranRest⟩ := run_cons_eq_some ranTick
  have onItsWay : Reached target final := by
    refine invariant_of_obeys ?_ tick statted final (.of_tickStat pending during.1 taken)
      (during.tail taken) ranRest
    intro w action next guarded holds step
    exact holds.step guarded step
  rcases onItsWay.2 with ⟨_, way⟩ | took
  · rcases way with ⟨found, phase, _⟩ | ⟨found, current, phase⟩
    · rw [ended] at phase
      cases phase
    · rw [ended] at phase
      cases phase
  · apply took.active
    rw [ended]
    rfl

end Runs

def quietTick (now : Int) : List Action :=
  [.tickStat, .tickCompare true, .tickRead, .tickVerify now, .tickAdopt now, .tickDue now true]

theorem dropped_license_kept :
    ∃ final, run (World.step plant)
        (World.write { state := { doc := some (plantTrial 0) } } (some (acmeLicense (days 1)))
          (.placed (some (acmeLicense (days 1))))) (quietTick (days 1)) = some final ∧
      ∃ doc, final.state.doc = some doc ∧ AtLeast doc (acmeLicense (days 1)) := by
  refine ⟨_, rfl, ?_⟩
  refine @placed_license_kept plant { doc := some (plantTrial 0) } none 0 [] []
    (quietTick (days 1)).tail _ _ _ (acmeLicense (days 1)) nofun nofun rfl rfl rfl
    (by decide +kernel) ?_
  refine ⟨⟨_, rfl, fun earlier impossible => by cases impossible⟩, trivial, rfl, trivial, ?_, ?_,
    trivial, trivial⟩
  · intro stamp current doc phase
    cases phase
    decide +kernel
  · intro stamp current doc loadedStamp phase
    cases phase
    refine ⟨by decide +kernel, ?_⟩
    intro replaced
    cases replaced

/-- A trial was re-attested by another replica. The operator drops a commercial
license between the read and the second stamp of the tick that adopts it. -/
def droppedAfterRead (now : Int) : List Action :=
  [.tickStat, .tickCompare true, .tickRead, .place (some (acmeLicense now)), .tickVerify now,
    .tickAdopt now, .tickDue now true, .tickStat, .tickCompare true, .tickDue now true]

def droppedBeforeRename (now : Int) : List Action :=
  [.tickStat, .tickDue now true, .place (some (acmeLicense now)),
    .answer (.response 200 "" (some (plantTrial now))) now, .tickRename true, .tickStamp,
    .tickRefresh, .tickStat, .tickCompare true, .tickDue now true]

/-- In both runs a complete tick has followed, and the trial is still active. -/
theorem dropped_license_lost :
    (∃ final, run (World.step plant)
        { state := { doc := some (plantTrial 0) }
          store := some { content := some (plantTrial (days 1)), stamp := 0 }
          nextStamp := 1 } (droppedAfterRead (days 1)) = some final ∧
      final.tick = .idle ∧ final.state.doc = some (plantTrial (days 1)) ∧
      ¬AtLeast (plantTrial (days 1)) (acmeLicense (days 1))) ∧
    ∃ final, run (World.step plant) { state := { doc := some (plantTrial 0) } }
        (droppedBeforeRename (days 1)) = some final ∧
      final.tick = .idle ∧ final.state.doc = some (plantTrial (days 1)) ∧
      final.store.bind StoreFile.content = some (plantTrial (days 1)) := by
  refine ⟨⟨_, rfl, by decide +kernel, by decide +kernel, ?_⟩, ⟨_, rfl, by decide +kernel,
    by decide +kernel, by decide +kernel⟩⟩
  rintro (⟨impossible, _⟩ | ⟨impossible, _⟩) <;> cases impossible

end MigrationPlatform.License
