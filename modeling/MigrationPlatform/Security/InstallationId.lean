/-
The installation id that all replicas of the API share through one file.

`load_or_create_installation_id` reads the file and, where it cannot, creates it
exclusively and writes a fresh id into it. The creation and the write are two
steps. A process that reads the file between them finds no id there and fails;
all others agree.
-/

import MigrationPlatform.Batch.Manifest
import MigrationPlatform.Foundation.GuardedRuns
import MigrationPlatform.Foundation.Trimming

namespace MigrationPlatform.Security

open GuardedRuns
open Batch (isSpaceRune trimRunes)

/-- The `uuid` crate: `parse_str`, `to_string` and `is_nil`. No proper prefix of
what `to_string` writes is a UUID. -/
structure UuidCrate where
  Uuid : Type
  parseStr : List Char → Option Uuid
  text : Uuid → List Char
  isNil : Uuid → Bool
  parseStr_text : ∀ id, parseStr (text id) = some id
  parseStr_short : ∀ id front, front <+: text id → front ≠ text id → parseStr front = none
  text_plain : ∀ id, ∀ c ∈ text id, isSpaceRune c = false

inductive InvalidId
  | notUuid
  | nil
deriving DecidableEq, Repr

def InvalidId.text : InvalidId → String
  | .notUuid => "installation ID is not a UUID"
  | .nil => "installation ID must not be nil"

inductive InstallationFailure
  | invalid (problem : InvalidId)
  | directory
  | creating
  | writing
  | syncing
  | rereading
deriving DecidableEq, Repr

/-- The text of the error, for the path of the file and that of its directory. -/
def InstallationFailure.text (path parent : String) : InstallationFailure → String
  | .invalid problem => problem.text
  | .directory => "creating installation ID directory " ++ parent
  | .creating => "creating installation ID " ++ path
  | .writing => "writing installation ID " ++ path
  | .syncing => "syncing installation ID " ++ path
  | .rereading => "reading concurrently-created installation ID " ++ path

variable (crate : UuidCrate)

def validateInstallationId (raw : List Char) : Except InvalidId (List Char) :=
  match crate.parseStr (trimRunes raw) with
  | none => .error .notUuid
  | some parsed => if crate.isNil parsed then .error .nil else .ok (crate.text parsed)

/-! ### One process -/

inductive LoadPhase
  | reading
  | making
  | opening (id : crate.Uuid)
  | writing (id : crate.Uuid) (rest : List Char)
  | syncing (id : crate.Uuid)
  | rereading
  | done (result : Except InstallationFailure (List Char))

def validated (raw : List Char) : LoadPhase crate :=
  match validateInstallationId crate raw with
  | .ok id => .done (.ok id)
  | .error problem => .done (.error (.invalid problem))

variable (Process : Type)

/-- The file, the processes, and who has created the file with which id. -/
structure InstallationWorld where
  file : Option (List Char)
  phases : Process → LoadPhase crate
  author : Option (Process × crate.Uuid)

/-- One step of a process. `works` says that the call to the file system does
not fail; a read also fails where there is no file, or no text in it. -/
inductive LoadStep
  | read (process : Process) (works : Bool)
  | makeDirectory (process : Process) (works : Bool) (drawn : { id // crate.isNil id = false })
  | create (process : Process) (works : Bool)
  | write (process : Process) (works : Bool) (count : Nat)
  | sync (process : Process) (works : Bool)
  | reread (process : Process) (works : Bool)

variable {crate Process} [DecidableEq Process]

namespace InstallationWorld

def move (world : InstallationWorld crate Process) (process : Process) (phase : LoadPhase crate) :
    InstallationWorld crate Process :=
  { world with phases := Function.update world.phases process phase }

def start (file : Option (List Char)) : InstallationWorld crate Process :=
  { file := file, phases := fun _ => .reading, author := none }

def readToString (world : InstallationWorld crate Process) (works : Bool) : Option (List Char) :=
  if works then world.file else none

/-- `create_new(true)`: of all processes one creates the file. -/
def createNew (world : InstallationWorld crate Process) (process : Process) (id : crate.Uuid)
    (works : Bool) : InstallationWorld crate Process :=
  match world.file with
  | some _ => if works then world.move process .rereading
      else world.move process (.done (.error .creating))
  | none =>
      if works then
        { world.move process (.writing id (crate.text id)) with
          file := some [], author := some (process, id) }
      else world.move process (.done (.error .creating))

def writeSome (world : InstallationWorld crate Process) (process : Process) (id : crate.Uuid)
    (rest : List Char) (count : Nat) : InstallationWorld crate Process :=
  { world.move process (.writing id (rest.drop count)) with
    file := world.file.map (fun written => written ++ rest.take count) }

def step (world : InstallationWorld crate Process) :
    LoadStep crate Process → Option (InstallationWorld crate Process)
  | .read process works =>
      match world.phases process with
      | .reading =>
          match world.readToString works with
          | some raw => some (world.move process (validated crate raw))
          | none => some (world.move process .making)
      | _ => none
  | .makeDirectory process works drawn =>
      match world.phases process with
      | .making =>
          if works then some (world.move process (.opening drawn.val))
          else some (world.move process (.done (.error .directory)))
      | _ => none
  | .create process works =>
      match world.phases process with
      | .opening id => some (world.createNew process id works)
      | _ => none
  | .write process works count =>
      match world.phases process with
      | .writing id rest =>
          if works then
            if rest = [] then some (world.move process (.syncing id))
            else some (world.writeSome process id rest count)
          else some (world.move process (.done (.error .writing)))
      | _ => none
  | .sync process works =>
      match world.phases process with
      | .syncing id =>
          if works then some (world.move process (.done (.ok (crate.text id))))
          else some (world.move process (.done (.error .syncing)))
      | _ => none
  | .reread process works =>
      match world.phases process with
      | .rereading =>
          match world.readToString works with
          | some raw => some (world.move process (validated crate raw))
          | none => some (world.move process (.done (.error .rereading)))
      | _ => none

/-- All that have returned an id have returned the one that the file holds, and
where a process of the run has created the file none takes it for no UUID. -/
structure Agreed (world : InstallationWorld crate Process) : Prop where
  same : ∀ left right one other, world.phases left = .done (.ok one) →
    world.phases right = .done (.ok other) → one = other
  held : ∀ process id, world.phases process = .done (.ok id) →
    ∃ raw, world.file = some raw ∧ validateInstallationId crate raw = .ok id
  taken : ∀ process, world.phases process = .done (.error (.invalid .notUuid)) →
    world.author = none

/-- Who reads a file that a process has created finds the whole id in it. -/
def ReadsWhole (world : InstallationWorld crate Process) : LoadStep crate Process → Prop
  | .read _ true | .reread _ true =>
      ∀ process id, world.author = some (process, id) → world.file = some (crate.text id)
  | _ => True

section Validation

variable {id : crate.Uuid}

theorem validateInstallationId_plain {raw : List Char} (plain : ∀ c ∈ raw, isSpaceRune c = false) :
    trimRunes raw = raw :=
  Trimming.trim_of_ends (fun c found => plain c (List.mem_of_mem_head? found))
    (fun c found => plain c (List.mem_of_getLast? found))

theorem validateInstallationId_text (proper : crate.isNil id = false) :
    validateInstallationId crate (crate.text id) = .ok (crate.text id) := by
  unfold validateInstallationId
  rw [validateInstallationId_plain (crate.text_plain id), crate.parseStr_text]
  dsimp only
  rw [proper, if_neg Bool.false_ne_true]

theorem validateInstallationId_short {front : List Char} (begins : front <+: crate.text id)
    (shorter : front ≠ crate.text id) : validateInstallationId crate front = .error .notUuid := by
  have plain : ∀ c ∈ front, isSpaceRune c = false :=
    fun c member => crate.text_plain id c (begins.subset member)
  unfold validateInstallationId
  rw [validateInstallationId_plain plain, crate.parseStr_short id front begins shorter]

end Validation

def Fits (world : InstallationWorld crate Process) (process : Process) : LoadPhase crate → Prop
  | .opening id => crate.isNil id = false
  | .writing id rest =>
      world.author = some (process, id) ∧
        ∃ written, world.file = some written ∧ written ++ rest = crate.text id
  | .syncing id => world.author = some (process, id) ∧ world.file = some (crate.text id)
  | .done (.error (.invalid _)) => world.file ≠ none
  | _ => True

structure Sound (world : InstallationWorld crate Process) : Prop where
  fits : ∀ process, Fits world process (world.phases process)
  content : ∀ process id, world.author = some (process, id) →
    crate.isNil id = false ∧ ∃ written, world.file = some written ∧ written <+: crate.text id

def Agrees (world : InstallationWorld crate Process) : LoadPhase crate → Prop
  | .done (.ok id) => ∃ raw, world.file = some raw ∧ validateInstallationId crate raw = .ok id
  | .done (.error (.invalid .notUuid)) => world.author = none
  | _ => True

section Steps

variable {world : InstallationWorld crate Process} {process : Process} {phase : LoadPhase crate}

omit [DecidableEq Process] in
theorem agreed_iff :
    Agreed world ↔ ∀ process, Agrees world (world.phases process) := by
  constructor
  · intro agreed process
    cases stands : world.phases process with
    | done result =>
        cases result with
        | ok id => exact agreed.held process id stands
        | error failure =>
            cases failure with
            | invalid problem =>
                cases problem with
                | notUuid => exact agreed.taken process stands
                | nil => trivial
            | _ => trivial
    | _ => trivial
  · intro each
    have held : ∀ process id, world.phases process = .done (.ok id) →
        ∃ raw, world.file = some raw ∧ validateInstallationId crate raw = .ok id := by
      intro process id returned
      have agrees := each process
      rw [returned] at agrees
      exact agrees
    refine ⟨?_, held, ?_⟩
    · intro left right one other leftReturned rightReturned
      obtain ⟨raw, file, valid⟩ := held left one leftReturned
      obtain ⟨raw', file', valid'⟩ := held right other rightReturned
      rw [file] at file'
      rw [← Option.some.inj file', valid] at valid'
      exact Except.ok.inj valid'
    · intro process failed
      have agrees := each process
      rw [failed] at agrees
      exact agrees

theorem forall_move (world : InstallationWorld crate Process) (process : Process)
    (phase : LoadPhase crate) (Property : Process → LoadPhase crate → Prop)
    (others : ∀ other, other ≠ process → Property other (world.phases other)) :
    (∀ other, Property other ((world.move process phase).phases other)) ↔
      Property process phase := by
  unfold move
  rw [Function.forall_update_iff world.phases Property]
  exact and_iff_left others

theorem Sound.move (sound : Sound world) (fits : Fits world process phase) :
    Sound (world.move process phase) := by
  refine ⟨?_, sound.content⟩
  have each := (forall_move world process phase (Fits world)
    (fun other _ => sound.fits other)).mpr fits
  intro other
  exact each other

omit [DecidableEq Process] in
theorem Fits.elsewhere {changed : InstallationWorld crate Process} (fits : Fits world process phase)
    (stranger : ∀ id, world.author ≠ some (process, id)) (present : changed.file ≠ none) :
    Fits changed process phase := by
  cases phase with
  | opening drawn => exact fits
  | writing drawn rest => exact absurd fits.1 (stranger drawn)
  | syncing drawn => exact absurd fits.1 (stranger drawn)
  | done result =>
      cases result with
      | ok returned => trivial
      | error failure =>
          cases failure with
          | invalid problem => exact present
          | _ => trivial
  | _ => trivial

theorem createNew_new (absent : world.file = none) (id : crate.Uuid) :
    world.createNew process id true =
      { world.move process (.writing id (crate.text id)) with
        file := some [], author := some (process, id) } := by
  unfold createNew
  rw [absent]
  rfl

omit [DecidableEq Process] in
theorem Sound.of_absent (sound : Sound world) (absent : world.file = none) :
    world.author = none := by
  cases created : world.author with
  | none => rfl
  | some author =>
      obtain ⟨_proper, written, file, _begins⟩ := sound.content author.1 author.2 created
      rw [absent] at file
      cases file

theorem Sound.created (sound : Sound world) (absent : world.file = none) {id : crate.Uuid}
    (proper : crate.isNil id = false) : Sound (world.createNew process id true) := by
  have nobody := sound.of_absent absent
  rw [createNew_new absent]
  refine ⟨(forall_move world process _ (Fits _) ?_).mpr ?_, ?_⟩
  · intro other _different
    apply (sound.fits other).elsewhere
    · intro drawn
      rw [nobody]
      exact fun impossible => by cases impossible
    · exact Option.some_ne_none _
  · exact ⟨rfl, [], rfl, List.nil_append _⟩
  · intro author created same
    cases same
    exact ⟨proper, [], rfl, List.nil_prefix⟩

theorem Sound.written (sound : Sound world) {id : crate.Uuid} {rest : List Char} {count : Nat}
    (stands : world.phases process = .writing id rest) :
    Sound (world.writeSome process id rest count) := by
  have own := sound.fits process
  rw [stands] at own
  obtain ⟨author, written, file, parts⟩ := own
  have proper := (sound.content process id author).1
  have longer : (written ++ rest.take count) ++ rest.drop count = crate.text id := by
    rw [List.append_assoc, List.take_append_drop]
    exact parts
  have grown : (world.writeSome process id rest count).file =
      some (written ++ rest.take count) := by
    unfold writeSome
    rw [file]
    rfl
  refine ⟨(forall_move world process _ (Fits _) ?_).mpr ?_, ?_⟩
  · intro other different
    apply (sound.fits other).elsewhere
    · intro drawn same
      exact different (Prod.mk.inj (Option.some.inj (same.symm.trans author))).1
    · exact Option.ne_none_iff_exists'.mpr ⟨_, grown⟩
  · exact ⟨author, _, grown, longer⟩
  · intro creator created same
    obtain ⟨rfl, rfl⟩ := Prod.mk.inj (Option.some.inj (author.symm.trans same))
    exact ⟨proper, _, grown, _, longer⟩

omit [DecidableEq Process] in
theorem fits_validated {raw : List Char} (file : world.file = some raw) :
    Fits world process (validated crate raw) := by
  unfold validated
  cases validateInstallationId crate raw with
  | ok id => trivial
  | error problem =>
      change world.file ≠ none
      rw [file]
      exact Option.some_ne_none raw

omit [DecidableEq Process] in
theorem agrees_validated (sound : Sound world) {raw : List Char} (file : world.file = some raw) :
    Agrees world (validated crate raw) ↔
      ∀ author id, world.author = some (author, id) → world.file = some (crate.text id) := by
  constructor
  · intro agrees author id created
    obtain ⟨_proper, written, found, begins⟩ := sound.content author id created
    rw [file] at found
    cases found
    by_cases whole : raw = crate.text id
    · rw [file, whole]
    · unfold validated at agrees
      rw [validateInstallationId_short begins whole] at agrees
      have nobody : world.author = none := agrees
      rw [created] at nobody
      cases nobody
  · intro whole
    unfold validated
    cases valid : validateInstallationId crate raw with
    | ok id => exact ⟨raw, file, valid⟩
    | error problem =>
        cases problem with
        | nil => trivial
        | notUuid =>
            change world.author = none
            cases created : world.author with
            | none => rfl
            | some author =>
                have text := whole author.1 author.2 created
                rw [file] at text
                cases text
                have proper := (sound.content author.1 author.2 created).1
                rw [validateInstallationId_text proper] at valid
                cases valid

omit [DecidableEq Process] in
theorem readsWhole_of_unread (sound : Sound world) {works : Bool}
    (unread : world.readToString works = none) :
    ReadsWhole world (.read process works) ∧ ReadsWhole world (.reread process works) := by
  cases works with
  | false => exact ⟨trivial, trivial⟩
  | true =>
      have nobody := sound.of_absent unread
      have whole : ∀ author id, world.author = some (author, id) →
          world.file = some (crate.text id) := by
        intro author id created
        rw [nobody] at created
        cases created
      exact ⟨whole, whole⟩

omit [DecidableEq Process] in
theorem agrees_iff_readsWhole (process : Process) (sound : Sound world) {works : Bool}
    {raw : List Char} (text : world.readToString works = some raw) :
    world.file = some raw ∧
      (Agrees world (validated crate raw) ↔ ReadsWhole world (.read process works)) ∧
      (Agrees world (validated crate raw) ↔ ReadsWhole world (.reread process works)) := by
  cases works with
  | false => cases text
  | true => exact ⟨text, agrees_validated sound text, agrees_validated sound text⟩

theorem step_cases (sound : Sound world) {action : LoadStep crate Process}
    {next : InstallationWorld crate Process} (taken : world.step action = some next) :
    (∃ process phase, next = world.move process phase ∧ Fits world process phase ∧
      (Agrees world phase ↔ ReadsWhole world action)) ∨
    (∃ process id, next = world.createNew process id true ∧ world.file = none ∧
      crate.isNil id = false ∧ ReadsWhole world action) ∨
    ∃ process id rest count, next = world.writeSome process id rest count ∧
      world.phases process = .writing id rest ∧ rest ≠ [] ∧ ReadsWhole world action := by
  cases action with
  | read process works =>
      dsimp only [step] at taken
      split at taken
      · cases text : world.readToString works with
        | none =>
            rw [text] at taken
            cases taken
            exact .inl ⟨process, .making, rfl, trivial,
              iff_of_true trivial (readsWhole_of_unread sound text).1⟩
        | some raw =>
            rw [text] at taken
            cases taken
            obtain ⟨file, first, _second⟩ := agrees_iff_readsWhole process sound text
            exact .inl ⟨process, _, rfl, fits_validated file, first⟩
      · cases taken
  | makeDirectory process works drawn =>
      dsimp only [step] at taken
      split at taken
      · cases works with
        | false =>
            cases taken
            exact .inl ⟨process, _, rfl, trivial, Iff.rfl⟩
        | true =>
            cases taken
            exact .inl ⟨process, .opening drawn.val, rfl, drawn.property, Iff.rfl⟩
      · cases taken
  | create process works =>
      dsimp only [step] at taken
      split at taken
      · rename_i id stands
        have fits := sound.fits process
        rw [stands] at fits
        cases taken
        cases works with
        | false =>
            have failed : world.createNew process id false =
                world.move process (.done (.error .creating)) := by
              unfold createNew
              cases world.file <;> rfl
            exact .inl ⟨process, _, failed, trivial, Iff.rfl⟩
        | true =>
            cases file : world.file with
            | none => exact .inr (.inl ⟨process, id, rfl, rfl, fits, trivial⟩)
            | some written =>
                have found : world.createNew process id true = world.move process .rereading := by
                  unfold createNew
                  rw [file]
                  rfl
                exact .inl ⟨process, _, found, trivial, Iff.rfl⟩
      · cases taken
  | write process works count =>
      dsimp only [step] at taken
      split at taken
      · rename_i id rest stands
        have fits := sound.fits process
        rw [stands] at fits
        cases works with
        | false =>
            cases taken
            exact .inl ⟨process, _, rfl, trivial, Iff.rfl⟩
        | true =>
            by_cases written : rest = []
            · subst written
              cases taken
              obtain ⟨author, all, file, parts⟩ := fits
              rw [List.append_nil] at parts
              rw [parts] at file
              exact .inl ⟨process, .syncing id, rfl, ⟨author, file⟩, Iff.rfl⟩
            · rw [if_pos rfl, if_neg written] at taken
              cases taken
              exact .inr (.inr ⟨process, id, rest, count, rfl, stands, written, trivial⟩)
      · cases taken
  | sync process works =>
      dsimp only [step] at taken
      split at taken
      · rename_i id stands
        have fits := sound.fits process
        rw [stands] at fits
        cases works with
        | false =>
            cases taken
            exact .inl ⟨process, _, rfl, trivial, Iff.rfl⟩
        | true =>
            cases taken
            have proper := (sound.content process id fits.1).1
            have returned : Agrees world (.done (.ok (crate.text id))) :=
              ⟨_, fits.2, validateInstallationId_text proper⟩
            exact .inl ⟨process, _, rfl, trivial, iff_of_true returned trivial⟩
      · cases taken
  | reread process works =>
      dsimp only [step] at taken
      split at taken
      · cases text : world.readToString works with
        | none =>
            rw [text] at taken
            cases taken
            exact .inl ⟨process, .done (.error .rereading), rfl, trivial,
              iff_of_true trivial (readsWhole_of_unread sound text).2⟩
        | some raw =>
            rw [text] at taken
            cases taken
            obtain ⟨file, _first, second⟩ := agrees_iff_readsWhole process sound text
            exact .inl ⟨process, _, rfl, fits_validated file, second⟩
      · cases taken

theorem Sound.step {action : LoadStep crate Process} {next : InstallationWorld crate Process}
    (sound : Sound world) (taken : world.step action = some next) : Sound next := by
  rcases step_cases sound taken with ⟨process, phase, rfl, fits, _⟩ |
    ⟨process, id, rfl, absent, proper, _⟩ | ⟨process, id, rest, count, rfl, stands, _⟩
  · exact sound.move fits
  · exact sound.created absent proper
  · exact sound.written stands

private theorem agrees_created (sound : Sound world) (absent : world.file = none) {id : crate.Uuid}
    (agrees : ∀ other, Agrees world (world.phases other)) :
    ∀ other, Agrees (world.createNew process id true)
      ((world.createNew process id true).phases other) := by
  rw [createNew_new absent]
  refine (forall_move world process _ (fun _ => Agrees _) ?_).mpr trivial
  intro other _different
  have before := agrees other
  have fits := sound.fits other
  cases stands : world.phases other with
  | done result =>
      rw [stands] at before fits
      cases result with
      | ok returned =>
          obtain ⟨raw, file, _valid⟩ := before
          rw [absent] at file
          cases file
      | error failure =>
          cases failure with
          | invalid problem => exact absurd absent fits
          | _ => trivial
  | _ => trivial

theorem agrees_written (sound : Sound world) {id : crate.Uuid} {rest : List Char} {count : Nat}
    (stands : world.phases process = .writing id rest) (unwritten : rest ≠ [])
    (agrees : ∀ other, Agrees world (world.phases other)) :
    ∀ other, Agrees (world.writeSome process id rest count)
      ((world.writeSome process id rest count).phases other) := by
  have own := sound.fits process
  rw [stands] at own
  obtain ⟨author, written, file, parts⟩ := own
  refine (forall_move world process _ (fun _ => Agrees _) ?_).mpr trivial
  intro other _different
  have before := agrees other
  cases phase : world.phases other with
  | done result =>
      rw [phase] at before
      cases result with
      | ok returned =>
          -- As long as the id is not written, nobody can have taken the file for valid.
          obtain ⟨raw, found, valid⟩ := before
          rw [file] at found
          cases found
          have shorter : written ≠ crate.text id := by
            intro same
            rw [← parts] at same
            exact unwritten (List.self_eq_append_right.mp same)
          rw [validateInstallationId_short ⟨rest, parts⟩ shorter] at valid
          cases valid
      | error failure =>
          cases failure with
          | invalid problem =>
              cases problem with
              | nil => trivial
              | notUuid => exact before
          | _ => trivial
  | _ => trivial

theorem agreed_step {action : LoadStep crate Process} {next : InstallationWorld crate Process}
    (sound : Sound world) (agreed : Agreed world) (taken : world.step action = some next) :
    Agreed next ↔ ReadsWhole world action := by
  have agrees := agreed_iff.mp agreed
  rw [agreed_iff]
  rcases step_cases sound taken with ⟨process, phase, rfl, _fits, same⟩ |
    ⟨process, id, rfl, absent, _proper, reads⟩ |
    ⟨process, id, rest, count, rfl, stands, unwritten, reads⟩
  · rw [← same]
    exact forall_move world process phase (fun _ => Agrees world)
      (fun other _ => agrees other)
  · exact iff_of_true (agrees_created sound absent agrees) reads
  · exact iff_of_true (agrees_written sound stands unwritten agrees) reads

end Steps

/-! ### All runs -/

omit [DecidableEq Process] in
theorem sound_start (file : Option (List Char)) :
    Sound (start file : InstallationWorld crate Process) :=
  ⟨fun _ => trivial, fun _ _ created => by cases created⟩

omit [DecidableEq Process] in
private theorem agreed_start (file : Option (List Char)) :
    Agreed (start file : InstallationWorld crate Process) :=
  agreed_iff.mpr (fun _ => trivial)

end InstallationWorld

open InstallationWorld

def AgreedThroughout (file : Option (List Char)) (actions : List (LoadStep crate Process)) : Prop :=
  ∀ early late reached, actions = early ++ late → run step (start file) early = some reached →
    Agreed reached

/-- In a run all agree throughout if and only if no step of it reads the file
between its creation and the end of the write. -/
theorem replicas_agree_iff (crate : UuidCrate) (file : Option (List Char))
    (actions : List (LoadStep crate Process)) (final : InstallationWorld crate Process)
    (ran : run step (start file) actions = some final) :
    AgreedThroughout file actions ↔ Obeys step ReadsWhole (start file) actions := by
  have sound : ∀ early (reached : InstallationWorld crate Process),
      run step (start file) early = some reached → Sound reached := by
    intro early reached ranEarly
    exact invariant_of_run (fun before action next holds taken => Sound.step holds taken) early
      (start file) reached (sound_start file) ranEarly
  have exact : ∀ (before : InstallationWorld crate Process) action next,
      Sound before ∧ Agreed before → step before action = some next →
        (Sound next ∧ Agreed next ↔ ReadsWhole before action) :=
    fun before action next holds taken =>
      (and_iff_right (Sound.step holds.1 taken)).trans (agreed_step holds.1 holds.2 taken)
  rw [← throughout_iff_obeys exact actions (start file) final
    ⟨sound_start file, agreed_start file⟩ ran]
  constructor
  · intro throughout early late reached split ranEarly
    exact ⟨sound early reached ranEarly, throughout early late reached split ranEarly⟩
  · intro throughout early late reached split ranEarly
    exact (throughout early late reached split ranEarly).2

def isHexDigit (c : Char) : Bool :=
  (48 ≤ c.toNat && c.toNat ≤ 57) || (97 ≤ c.toNat && c.toNat ≤ 102)

/-- A UUID as `to_string` writes it. -/
def isHyphenated (text : List Char) : Bool :=
  text.length == 36 && text.all (fun c => isHexDigit c || c == '-') && text.count '-' == 4 &&
    [8, 13, 18, 23].all (fun position => text[position]? == some '-')

theorem isHyphenated_length {text : List Char} (hyphenated : isHyphenated text = true) :
    text.length = 36 := by
  unfold isHyphenated at hyphenated
  simp only [Bool.and_eq_true, beq_iff_eq] at hyphenated
  exact hyphenated.1.1.1

private theorem isHyphenated_digits {text : List Char} (hyphenated : isHyphenated text = true) :
    ∀ c ∈ text, isHexDigit c = true ∨ c = '-' := by
  unfold isHyphenated at hyphenated
  simp only [Bool.and_eq_true, List.all_eq_true, Bool.or_eq_true, beq_iff_eq] at hyphenated
  exact hyphenated.1.1.2

private theorem spaceRunes_not_hex : ∀ rune ∈ Batch.spaceRunes,
    ¬(48 ≤ rune ∧ rune ≤ 57) ∧ ¬(97 ≤ rune ∧ rune ≤ 102) ∧ rune ≠ 45 := by
  decide

private theorem isHexDigit_plain {c : Char} (digit : isHexDigit c = true ∨ c = '-') :
    isSpaceRune c = false := by
  cases space : isSpaceRune c with
  | false => rfl
  | true =>
      obtain ⟨notDigit, notLetter, notHyphen⟩ :=
        spaceRunes_not_hex c.toNat (List.contains_iff_mem.mp space)
      rcases digit with digit | hyphen
      · unfold isHexDigit at digit
        simp only [Bool.or_eq_true, Bool.and_eq_true, decide_eq_true_eq] at digit
        omega
      · exact absurd (congrArg Char.toNat hyphen) notHyphen

/-- The crate, so far as it reads what it has written itself. -/
def hyphenatedUuids : UuidCrate where
  Uuid := { text : List Char // isHyphenated text = true }
  parseStr := fun text =>
    if hyphenated : isHyphenated text = true then some ⟨text, hyphenated⟩ else none
  text := Subtype.val
  isNil := fun id => id.val.all (fun c => c == '-' || c == '0')
  parseStr_text := fun id => dif_pos id.property
  parseStr_short := by
    intro id front begins shorter
    rw [dif_neg]
    intro hyphenated
    have same : front.length = id.val.length := by
      rw [isHyphenated_length hyphenated, isHyphenated_length id.property]
    exact shorter (begins.eq_of_length same)
  text_plain := fun id c member => isHexDigit_plain (isHyphenated_digits id.property c member)

def drawnUuid : { id : hyphenatedUuids.Uuid // hyphenatedUuids.isNil id = false } :=
  ⟨⟨"6f1c0e52-9a4b-4d7e-8f30-1b2a3c4d5e6f".toList, by decide⟩, by decide⟩

def loadsInTurn : List (LoadStep hyphenatedUuids Bool) :=
  [.read false true, .makeDirectory false true drawnUuid, .create false true,
    .write false true 36, .write false true 0, .sync false true, .read true true]

def loadsBetween : List (LoadStep hyphenatedUuids Bool) :=
  [.read false true, .makeDirectory false true drawnUuid, .create false true, .read true true]

theorem loadsInTurn_agree : AgreedThroughout none loadsInTurn := by
  refine (replicas_agree_iff hyphenatedUuids none loadsInTurn _ rfl).mpr ?_
  refine ⟨?_, trivial, trivial, trivial, trivial, trivial, ?_, trivial⟩
  · intro process id created
    cases created
  · intro process id created
    cases created
    rfl

theorem loadsBetween_disagree : ¬∀ (actions : List (LoadStep hyphenatedUuids Bool))
    (reached : InstallationWorld hyphenatedUuids Bool),
    run step (start none) actions = some reached → Agreed reached := by
  intro agree
  have agreed := agree loadsBetween _ rfl
  have nobody := agreed.taken true rfl
  cases nobody

end MigrationPlatform.Security
