/-
The secrets of one organization and the routes that write them.

Destination secrets, which templates name in `auth.secretRef`, share a table and
its names with the credentials of connectors and of the LLM configuration; the
column `kind` tells them apart. A stored value stands for its ciphertext and
carries the route that stored it, so that "the value stored by" can be said.
-/

import MigrationPlatform.Foundation.GuardedRuns
import Mathlib.Logic.Function.Basic

namespace MigrationPlatform.Security

open GuardedRuns

inductive SecretWriter
  | putSecret
  | createConnector
  | putConfig
deriving DecidableEq, Repr

structure StoredValue where
  text : String
  writer : SecretWriter
deriving DecidableEq, Repr

inductive SecretKind
  | internal
  | destination
deriving DecidableEq, Repr

structure SecretRow where
  kind : SecretKind
  value : Option StoredValue
  revoked : Bool
deriving DecidableEq, Repr

/-- The tables `secrets`, `connectors` and `org_llm_configs` of the
organization. Rows of `secrets` are never deleted and names are unique, so a
`secret_id` is the name it stands for. `waiting` holds the calls of
`put_secret` that have found no row and not inserted theirs yet. -/
structure SecretStore where
  rows : String → Option SecretRow
  connectors : List (String × Option String)
  llmSecret : Option String
  waiting : List (String × String)

def SecretStore.empty : SecretStore :=
  { rows := fun _ => none, connectors := [], llmSecret := none, waiting := [] }

def SecretStore.setRow (s : SecretStore) (name : String) (row : SecretRow) : SecretStore :=
  { s with rows := Function.update s.rows name (some row) }

def SecretStore.uses (s : SecretStore) (name : String) : Prop :=
  s.llmSecret = some name ∨ some name ∈ s.connectors.map Prod.snd

/-! ### The routes -/

inductive SecretError
  | nameInvalid
  | valueInvalid
  | nameTaken (name : String)
  | notFound
  | connectorExists (name : String)
  | database
deriving DecidableEq, Repr

/-- The message of the response; `quoted` stands for the debug format of a
string. -/
def SecretError.text (quoted : String → String) : SecretError → String
  | .nameInvalid =>
      "bad request: secret name must be 1-128 characters of A-Z, a-z, 0-9, '_', '.', '-'"
  | .valueInvalid => "bad request: secret value must be 1-8192 bytes"
  | .nameTaken name =>
      "conflict: secret name " ++ quoted name ++
        " is used by a connector or LLM credential; choose another name"
  | .notFound => "not found"
  | .connectorExists name => "conflict: connector " ++ name ++ " already exists"
  | .database => "An unexpected error occurred"

def validateName (name : String) : Bool :=
  name ≠ "" && decide (name.toList.length ≤ 128) &&
    name.toList.all (fun c => c.isAlphanum || c == '_' || c == '.' || c == '-')

def maxSecretBytes : Nat := 8 * 1024

/-- The INSERT of `put_secret`, which leaves the kind of a row in its way alone. -/
def SecretStore.upsertDestination (s : SecretStore) (name value : String) : SecretStore :=
  let stored : StoredValue := { text := value, writer := .putSecret }
  match s.rows name with
  | none => s.setRow name { kind := .destination, value := some stored, revoked := false }
  | some row => s.setRow name { row with value := some stored, revoked := false }

/-- `put_secret` up to its INSERT, and with it where the SELECT has found and
locked a row: nothing can come between the two then. -/
def putSecret (name value : String) (s : SecretStore) : Except SecretError SecretStore :=
  if validateName name = false then .error .nameInvalid
  else if value = "" ∨ maxSecretBytes < value.utf8ByteSize then .error .valueInvalid
  else
    match s.rows name with
    | none => .ok { s with waiting := (name, value) :: s.waiting }
    | some row =>
        if row.kind ≠ .destination then .error (.nameTaken name)
        else .ok (s.upsertDestination name value)

def putSecretInsert (name value : String) (s : SecretStore) : SecretStore :=
  { s.upsertDestination name value with waiting := s.waiting.erase (name, value) }

def revokeSecret (name : String) (s : SecretStore) : Except SecretError SecretStore :=
  if validateName name = false then .error .nameInvalid
  else
    match s.rows name with
    | none => .error .notFound
    | some row =>
        if row.kind = .destination ∧ row.revoked = false then
          .ok (s.setRow name { row with value := none, revoked := true })
        else
          .error .notFound

def connectorSecretName (name : String) : String := name ++ "-secret"

def connectorSecretRow (text : String) : SecretRow :=
  { kind := .internal, value := some { text := text, writer := .createConnector }
    revoked := false }

/-- The transaction of `create_connector`; both tables have unique names. -/
def createConnector (name : String) (secret : Option String) (s : SecretStore) :
    Except SecretError SecretStore :=
  match secret with
  | none =>
      if name ∈ s.connectors.map Prod.fst then .error (.connectorExists name)
      else .ok { s with connectors := (name, none) :: s.connectors }
  | some text =>
      if (s.rows (connectorSecretName name)).isSome then .error .database
      else if name ∈ s.connectors.map Prod.fst then .error (.connectorExists name)
      else
        .ok { s.setRow (connectorSecretName name) (connectorSecretRow text) with
          connectors := (name, some (connectorSecretName name)) :: s.connectors }

def llmSecretName : String := "llm-api-key"

/-- The INSERT of `put_config` neither reads the kind nor the revocation of a
row in its way, and changes neither. -/
def llmSecretRow (key : String) : Option SecretRow → SecretRow
  | none => { kind := .internal, value := some { text := key, writer := .putConfig }
              revoked := false }
  | some row => { row with value := some { text := key, writer := .putConfig } }

def putConfig (apiKey : Option String) (s : SecretStore) : SecretStore :=
  match apiKey with
  | none => s
  | some key =>
      { s.setRow llmSecretName (llmSecretRow key (s.rows llmSecretName)) with
        llmSecret := some llmSecretName }

/-- What `auth.secretRef` resolves to for a job of the organization. -/
def destinationSecret (s : SecretStore) (name : String) : Option StoredValue :=
  match s.rows name with
  | none => none
  | some row => if row.kind = .destination ∧ row.revoked = false then row.value else none

inductive SecretAction
  | putSecret (name value : String)
  | putSecretInsert (name value : String)
  | revokeSecret (name : String)
  | createConnector (name : String) (secret : Option String)
  | putConfig (apiKey : Option String)
deriving DecidableEq, Repr

/-- A route that fails leaves the tables as they were. -/
def SecretStore.after (s : SecretStore) : Except SecretError SecretStore → SecretStore
  | .ok next => next
  | .error _ => s

def SecretStore.step (s : SecretStore) : SecretAction → Option SecretStore
  | .putSecret name value => some (s.after (putSecret name value s))
  | .putSecretInsert name value =>
      if (name, value) ∈ s.waiting then some (putSecretInsert name value s) else none
  | .revokeSecret name => some (s.after (revokeSecret name s))
  | .createConnector name secret => some (s.after (createConnector name secret s))
  | .putConfig apiKey => some (putConfig apiKey s)

/-- Templates read what `put_secret` stored, and what a connector or the LLM
configuration uses is what `create_connector` or `put_config` stored for it. -/
structure Isolated (s : SecretStore) : Prop where
  readable : ∀ name value, destinationSecret s name = some value → value.writer = .putSecret
  kept : ∀ name, s.uses name → ∃ row value, s.rows name = some row ∧ row.value = some value ∧
    value.writer ≠ .putSecret

/-- An LLM key is not stored over an active destination secret, and `put_secret`
does not write to a name that is in use by the time it writes. -/
def KeepsApart (s : SecretStore) : SecretAction → Prop
  | .putSecret name value => validateName name = true → value ≠ "" →
      value.utf8ByteSize ≤ maxSecretBytes →
        ∀ row, s.rows name = some row → row.kind = .destination → ¬s.uses name
  | .putSecretInsert name _ => ¬s.uses name
  | .putConfig (some _) => ∀ row, s.rows llmSecretName = some row →
      ¬(row.kind = .destination ∧ row.revoked = false)
  | .putConfig none => True
  | .revokeSecret _ => True
  | .createConnector _ _ => True

section Routes

variable {s : SecretStore}

theorem setRow_rows_self (name : String) (row : SecretRow) :
    (s.setRow name row).rows name = some row :=
  Function.update_self name _ s.rows

theorem setRow_rows_of_ne {name other : String} (different : other ≠ name) (row : SecretRow) :
    (s.setRow name row).rows other = s.rows other :=
  Function.update_of_ne different _ s.rows

private theorem destinationSecret_congr {after : SecretStore} {name : String}
    (same : after.rows name = s.rows name) :
    destinationSecret after name = destinationSecret s name := by
  unfold destinationSecret
  rw [same]

theorem Isolated.of_setRow (isolated : Isolated s) {after : SecretStore} {name : String}
    {row : SecretRow} (rows : after.rows = (s.setRow name row).rows)
    (users : ∀ other ≠ name, after.uses other → s.uses other)
    (readable : row.kind = .destination → row.revoked = false →
      ∀ value, row.value = some value → value.writer = .putSecret)
    (kept : after.uses name → ∃ value, row.value = some value ∧ value.writer ≠ .putSecret) :
    Isolated after := by
  constructor
  · intro other value found
    by_cases same : other = name
    · subst same
      unfold destinationSecret at found
      rw [rows, setRow_rows_self] at found
      simp only at found
      split at found
      · rename_i active
        exact readable active.1 active.2 value found
      · cases found
    · have unchanged : after.rows other = s.rows other := by
        rw [rows, setRow_rows_of_ne same]
      rw [destinationSecret_congr unchanged] at found
      exact isolated.readable other value found
  · intro other used
    by_cases same : other = name
    · subst same
      obtain ⟨value, stored, writer⟩ := kept used
      refine ⟨row, value, ?_, stored, writer⟩
      rw [rows, setRow_rows_self]
    · obtain ⟨found, value, foundRow, stored, writer⟩ := isolated.kept other (users other same used)
      refine ⟨found, value, ?_, stored, writer⟩
      rw [rows, setRow_rows_of_ne same]
      exact foundRow

private theorem Isolated.not_active_of_uses (isolated : Isolated s) {name : String}
    (used : s.uses name)
    {row : SecretRow} (found : s.rows name = some row) :
    ¬(row.kind = .destination ∧ row.revoked = false) := by
  intro active
  obtain ⟨other, value, otherFound, stored, writer⟩ := isolated.kept name used
  rw [found] at otherFound
  cases otherFound
  apply writer
  apply isolated.readable name value
  unfold destinationSecret
  rw [found]
  simp only [active, and_self, if_true]
  exact stored

theorem upsertDestination_eq (s : SecretStore) (name value : String) :
    ∃ kind, s.upsertDestination name value = s.setRow name
      { kind := kind, value := some { text := value, writer := .putSecret }, revoked := false } := by
  unfold SecretStore.upsertDestination
  cases s.rows name with
  | none => exact ⟨.destination, rfl⟩
  | some row => exact ⟨row.kind, rfl⟩

theorem upsertDestination_uses (s : SecretStore) (name value other : String) :
    (s.upsertDestination name value).uses other ↔ s.uses other := by
  obtain ⟨kind, written⟩ := upsertDestination_eq s name value
  rw [written]
  exact Iff.rfl

theorem upsertDestination_isolated_iff (isolated : Isolated s) (name value : String)
    {after : SecretStore} (rows : after.rows = (s.upsertDestination name value).rows)
    (users : ∀ other, after.uses other ↔ s.uses other) :
    Isolated after ↔ ¬s.uses name := by
  obtain ⟨kind, written⟩ := upsertDestination_eq s name value
  rw [written] at rows
  constructor
  · intro afterwards used
    obtain ⟨row, found, foundRow, stored, writer⟩ :=
      afterwards.kept name ((users name).mpr used)
    rw [rows, setRow_rows_self] at foundRow
    cases foundRow
    cases stored
    exact writer rfl
  · intro unused
    apply isolated.of_setRow rows
    · intro other _different
      exact (users other).mp
    · intro _kind _active found stored
      cases stored
      rfl
    · intro used
      exact absurd ((users name).mp used) unused

theorem putSecret_isolated_iff (isolated : Isolated s) (name value : String) :
    Isolated (s.after (putSecret name value s)) ↔ KeepsApart s (.putSecret name value) := by
  unfold putSecret
  by_cases badName : validateName name = false
  · rw [if_pos badName]
    apply iff_of_true isolated
    intro goodName
    rw [badName] at goodName
    cases goodName
  rw [if_neg badName]
  by_cases badValue : value = "" ∨ maxSecretBytes < value.utf8ByteSize
  · rw [if_pos badValue]
    apply iff_of_true isolated
    intro _goodName nonempty short
    rcases badValue with empty | long
    · exact absurd empty nonempty
    · omega
  rw [if_neg badValue]
  have goodName : validateName name = true := by simpa using badName
  have nonempty : value ≠ "" := fun empty => badValue (.inl empty)
  have short : value.utf8ByteSize ≤ maxSecretBytes := by
    by_contra long
    exact badValue (.inr (by omega))
  cases found : s.rows name with
  | none =>
      apply iff_of_true ⟨isolated.readable, isolated.kept⟩
      intro _goodName _nonempty _short row impossible
      rw [found] at impossible
      cases impossible
  | some row =>
      by_cases destination : row.kind = .destination
      · simp only [destination, ne_eq, not_true_eq_false, if_false]
        change Isolated (s.upsertDestination name value) ↔ _
        rw [upsertDestination_isolated_iff isolated name value rfl
          (upsertDestination_uses s name value)]
        constructor
        · intro unused _goodName _nonempty _short _row _found _destination
          exact unused
        · intro apart
          exact apart goodName nonempty short row found destination
      · simp only [destination, ne_eq, not_false_eq_true, if_true]
        apply iff_of_true isolated
        intro _goodName _nonempty _short other otherFound otherDestination
        rw [found] at otherFound
        cases otherFound
        exact absurd otherDestination destination

private theorem revokeSecret_isolated (isolated : Isolated s) (name : String) :
    Isolated (s.after (revokeSecret name s)) := by
  unfold revokeSecret
  split
  · exact isolated
  cases found : s.rows name with
  | none => exact isolated
  | some row =>
      by_cases active : row.kind = .destination ∧ row.revoked = false
      · simp only [active, and_self, if_true]
        apply isolated.of_setRow rfl
        · intro other _different used
          exact used
        · intro _kind impossible
          cases impossible
        · intro used
          exact absurd active (isolated.not_active_of_uses used found)
      · simp only [active, if_false]
        exact isolated

theorem createConnector_isolated (isolated : Isolated s) (name : String)
    (secret : Option String) : Isolated (s.after (createConnector name secret s)) := by
  unfold createConnector
  cases secret with
  | none =>
      simp only
      split
      · exact isolated
      · constructor
        · exact isolated.readable
        · intro other used
          apply isolated.kept other
          rcases used with llm | connector
          · exact .inl llm
          · rcases List.mem_cons.mp connector with impossible | before
            · cases impossible
            · exact .inr before
  | some text =>
      simp only
      split
      · exact isolated
      split
      · exact isolated
      · have rows : (s.after (.ok { s.setRow (connectorSecretName name) (connectorSecretRow text) with
            connectors := (name, some (connectorSecretName name)) :: s.connectors })).rows =
              (s.setRow (connectorSecretName name) (connectorSecretRow text)).rows := rfl
        apply isolated.of_setRow rows
        · intro other different used
          rcases used with llm | connector
          · exact .inl llm
          · rcases List.mem_cons.mp connector with own | before
            · cases own
              exact absurd rfl different
            · exact .inr before
        · intro impossible
          cases impossible
        · intro _used
          exact ⟨_, rfl, fun impossible => by cases impossible⟩

theorem putConfig_isolated_iff (isolated : Isolated s) (apiKey : Option String) :
    Isolated (putConfig apiKey s) ↔ KeepsApart s (.putConfig apiKey) := by
  cases apiKey with
  | none => exact iff_of_true isolated trivial
  | some key =>
      constructor
      · intro afterwards row found active
        have read : destinationSecret (putConfig (some key) s) llmSecretName =
            some { text := key, writer := .putConfig } := by
          unfold destinationSecret putConfig
          simp only [found, setRow_rows_self, llmSecretRow, active, and_self, if_true]
        have writer := afterwards.readable _ _ read
        cases writer
      · intro apart
        have rows : (putConfig (some key) s).rows =
            (s.setRow llmSecretName (llmSecretRow key (s.rows llmSecretName))).rows := rfl
        apply isolated.of_setRow rows
        · intro other different used
          rcases used with llm | connector
          · cases llm
            exact absurd rfl different
          · exact .inr connector
        · intro destination active
          exfalso
          cases found : s.rows llmSecretName with
          | none =>
              rw [found] at destination
              cases destination
          | some row =>
              rw [found] at destination active
              exact apart row found ⟨destination, active⟩
        · intro _used
          refine ⟨{ text := key, writer := .putConfig }, ?_, fun impossible => by cases impossible⟩
          cases s.rows llmSecretName with
          | none => rfl
          | some row => rfl

private theorem SecretStore.step_isolated (s : SecretStore) (action : SecretAction)
    (next : SecretStore)
    (isolated : Isolated s) (taken : s.step action = some next) :
    Isolated next ↔ KeepsApart s action := by
  cases action with
  | putSecret name value =>
      cases taken
      exact putSecret_isolated_iff isolated name value
  | putSecretInsert name value =>
      simp only [SecretStore.step] at taken
      split at taken
      · cases taken
        exact upsertDestination_isolated_iff isolated name value rfl
          (upsertDestination_uses s name value)
      · cases taken
  | revokeSecret name =>
      cases taken
      exact iff_of_true (revokeSecret_isolated isolated name) trivial
  | createConnector name secret =>
      cases taken
      exact iff_of_true (createConnector_isolated isolated name secret) trivial
  | putConfig apiKey =>
      cases taken
      exact putConfig_isolated_iff isolated apiKey

end Routes

private theorem SecretStore.empty_isolated : Isolated .empty := by
  constructor
  · intro name value impossible
    cases impossible
  · rintro name (impossible | impossible)
    · cases impossible
    · cases impossible

/-- In every interleaving of the routes, destination secrets and internal
credentials stay isolated all along exactly where every step keeps them apart. -/
theorem secrets_isolated_iff {history : List SecretAction} {final : SecretStore}
    (ran : run SecretStore.step .empty history = some final) :
    (∀ early late reached, history = early ++ late →
      run SecretStore.step .empty early = some reached → Isolated reached) ↔
      Obeys SecretStore.step KeepsApart .empty history :=
  throughout_iff_obeys SecretStore.step_isolated history .empty final
    SecretStore.empty_isolated ran

theorem separate_names_isolated :
    ∃ final, run SecretStore.step .empty
        [.putSecret "crm_token" "k1", .putSecretInsert "crm_token" "k1",
          .createConnector "sftp" (some "k2"), .putConfig (some "k3")] = some final ∧
      ((∀ early late reached,
        [.putSecret "crm_token" "k1", .putSecretInsert "crm_token" "k1",
          .createConnector "sftp" (some "k2"), .putConfig (some "k3")] = early ++ late →
        run SecretStore.step .empty early = some reached → Isolated reached) ↔
        Obeys SecretStore.step KeepsApart .empty
          [.putSecret "crm_token" "k1", .putSecretInsert "crm_token" "k1",
            .createConnector "sftp" (some "k2"), .putConfig (some "k3")]) :=
  ⟨_, rfl, secrets_isolated_iff rfl⟩

/-- A destination secret of the name `llm-api-key` comes to hold the LLM key,
and a call of `put_secret` that was checked before a connector was created
replaces the secret of the connector. -/
theorem names_are_taken_over :
    (∃ reached, run SecretStore.step .empty
        [.putSecret "llm-api-key" "x", .putSecretInsert "llm-api-key" "x",
          .putConfig (some "sk-live")] = some reached ∧
      destinationSecret reached "llm-api-key" =
        some { text := "sk-live", writer := .putConfig } ∧ ¬Isolated reached) ∧
    ∃ reached, run SecretStore.step .empty
        [.putSecret "sftp-secret" "x", .createConnector "sftp" (some "pw"),
          .putSecretInsert "sftp-secret" "x"] = some reached ∧
      reached.uses "sftp-secret" ∧ (reached.rows "sftp-secret").bind SecretRow.value =
        some { text := "x", writer := .putSecret } ∧ ¬Isolated reached := by
  constructor
  · refine ⟨_, rfl, by decide +kernel, ?_⟩
    intro isolated
    have writer := isolated.readable "llm-api-key" { text := "sk-live", writer := .putConfig }
      (by decide +kernel)
    cases writer
  · refine ⟨_, rfl, .inr (by decide +kernel), by decide +kernel, ?_⟩
    intro isolated
    obtain ⟨row, value, found, stored, writer⟩ :=
      isolated.kept "sftp-secret" (.inr (by decide +kernel))
    cases found
    cases stored
    exact writer rfl

end MigrationPlatform.Security
