/-
What a call of `Ingest` may open.

The input of a workflow is not trusted: `authorize` checks some of its fields and
hands the same configuration on to a connector, which looks at fields in an
order of its own. Stored connectors and their secrets are read by organization,
and a job may set nothing but the query of one.
-/

import MigrationPlatform.Connectors.Salesforce
import MigrationPlatform.Connectors.WatchedSource

namespace MigrationPlatform.Connectors

structure ConnectorRow where
  id : Int
  orgID : Int
  kind : String
  config : Value
  secretID : Option Int

/-- A row of `secrets`, with what decrypting it gives. -/
structure StoredSecret where
  id : Int
  orgID : Int
  plain : Except String String

structure ConnectorStore where
  connectors : List ConnectorRow
  secrets : List StoredSecret

structure StoredConnector where
  kind : String
  config : Data
  secret : String

inductive StoreError
  | noRows
  | other (message : String)

def ConnectorRow.decodeConfig (row : ConnectorRow) : Except StoreError Data :=
  match row.config with
  | .object fields => .ok fields
  | .null => .ok []
  | _ => .error (.other ("connector " ++ toString row.id ++
      " config: cannot unmarshal into Go value of type map[string]interface \x7b\x7d"))

def ConnectorStore.secretOf (store : ConnectorStore) (orgID : Int) (row : ConnectorRow) :
    Except StoreError String :=
  match row.secretID with
  | none => .ok ""
  | some secretID =>
      match store.secrets.find? (fun secret =>
          decide (secret.id = secretID ∧ secret.orgID = orgID)) with
      | none =>
          .error (.other ("connector " ++ toString row.id ++ " secret: no rows in result set"))
      | some secret =>
          match secret.plain with
          | .error message =>
              .error (.other ("decrypt connector " ++ toString row.id ++ " secret: " ++ message))
          | .ok plain => .ok plain

def ConnectorStore.connector (store : ConnectorStore) (orgID id : Int) :
    Except StoreError StoredConnector :=
  match store.connectors.find? (fun row => decide (row.id = id ∧ row.orgID = orgID)) with
  | none => .error .noRows
  | some row =>
      match row.decodeConfig with
      | .error problem => .error problem
      | .ok config =>
          match store.secretOf orgID row with
          | .error problem => .error problem
          | .ok secret => .ok { kind := row.kind.toLower, config := config, secret := secret }

def connectorQueryKeys : List String := ["soql", "cursorField", "cursor"]

def mergedConfig (stored asked : Data) (keys : List String) : Data :=
  keys.foldl (fun merged key =>
    match asked.lookup key with
    | some value => merged.set key value
    | none => merged) stored

def connectorSource (store : ConnectorStore) (input : IngestInput) :
    Except SourceRefusal AuthorizedSource :=
  match store.connector input.orgID input.connectorID with
  | .error .noRows =>
      .error (.notAuthorized ("connector " ++ toString input.connectorID ++
        " not found for org " ++ toString input.orgID))
  | .error (.other message) => .error (.other ("load connector: " ++ message))
  | .ok conn =>
      if conn.kind ≠ "salesforce" then
        .error (.notAuthorized ("connector " ++ toString input.connectorID ++ " kind " ++
          conn.kind.quote ++ " cannot feed a job directly"))
      else
        .ok { kind := .salesforce
              config := mergedConfig conn.config input.config connectorQueryKeys
              secret := conn.secret }

structure SfEndpoint where
  tokenUrl : String
  clientID : String
  clientSecret : String
  instanceURL : String
deriving DecidableEq, Repr

inductive Opened
  | object (bucket key : String)
  | url (url : String)
  | file (path : String)
  | objectURLs (urls : List String)
  | salesforce (endpoint : SfEndpoint) (query : SfConfig)

def openSource (config : Data) : Except String Opened :=
  if textField config "s3_bucket" ≠ "" ∧ textField config "s3_key" ≠ "" then
    .ok (.object (textField config "s3_bucket") (textField config "s3_key"))
  else if "http".toList.isPrefixOf (textField config "url").toList = true then
    .ok (.url (textField config "url"))
  else
    match config.lookup "path" with
    | some (.text path) => .ok (.file path)
    | _ => .error "csv source missing path/url"

def sfEndpoint (config : Data) (secret : String) : SfEndpoint :=
  { tokenUrl := textField config "tokenUrl"
    clientID := textField config "clientId"
    clientSecret := secret
    instanceURL := textField config "instanceUrl" }

def sfConfig (config : Data) : SfConfig :=
  { soql := textField config "soql"
    tokenUrl := textField config "tokenUrl"
    cursorField := textField config "cursorField"
    cursor := textField config "cursor" }

def openWatchedPrefix (config : Data) : Except String Opened :=
  match config.lookup "objects" with
  | some (.list objects) =>
      .ok (.objectURLs (objects.filterMap (fun object =>
        match object with
        | .text url => some url
        | _ => none)))
  | _ => .error "watched_prefix requires cfg.objects as an array of URLs"

def openConnector (source : AuthorizedSource) : Except String Opened :=
  match source.kind with
  | .format _ => openSource source.config
  | .salesforce =>
      if textField source.config "soql" = "" then
        .error "salesforce connector requires 'soql' in config"
      else if textField source.config "tokenUrl" = "" then
        .error "salesforce connector requires 'tokenUrl'"
      else .ok (.salesforce (sfEndpoint source.config source.secret) (sfConfig source.config))
  | .other kind =>
      if kind = "watched_prefix" then openWatchedPrefix source.config
      else .error ("unsupported connector kind: " ++ kind)

inductive IngestRefusal
  | source (refusal : SourceRefusal)
  | connector (message : String)

def ingestOpens (registry : SourceRegistry) (store : ConnectorStore)
    (stat : Location → Except String ObjectInfo) (allowLocalPaths : Bool) (input : IngestInput) :
    Except IngestRefusal Opened :=
  match ingestSource registry stat (connectorSource store) allowLocalPaths input with
  | .error refusal => .error (.source refusal)
  | .ok source =>
      match openConnector source with
      | .error message => .error (.connector message)
      | .ok opened => .ok opened

/-- Where the requests of the Salesforce connector go; both escapes are those of
`net/url`. -/
def SfEndpoint.url (pathEscape queryEscape : String → String) (endpoint : SfEndpoint) :
    SfRequest → String
  | .token => endpoint.tokenUrl
  | .create _ => endpoint.instanceURL ++ "/services/data/v58.0/jobs/query"
  | .state job => endpoint.instanceURL ++ "/services/data/v58.0/jobs/query/" ++ pathEscape job
  | .results job locator =>
      endpoint.instanceURL ++ "/services/data/v58.0/jobs/query/" ++ pathEscape job ++
        "/results?maxRecords=2000" ++
        (if locator = "" then "" else "&locator=" ++ queryEscape locator)

/-- A source of the organization that names the object. A token or size that is
empty or zero counts as not recorded, as `sourceCols` has it. -/
structure RegisteredObject (registry : SourceRegistry) (stat : Location → Except String ObjectInfo)
    (location : Location) (row : SourceRow) (info : ObjectInfo) : Prop where
  registered : row ∈ registry.rows
  owned : row.location = location
  found : stat location = .ok info
  token : row.etag.getD "" ≠ "" → info.etag = row.etag.getD ""
  size : row.size.getD 0 > 0 → info.size = row.size.getD 0

structure StoredEndpoint (store : ConnectorStore) (orgID : Int) (row : ConnectorRow)
    (config : Data) (secret : String) : Prop where
  stored : row ∈ store.connectors
  owned : row.orgID = orgID
  decoded : row.decodeConfig = .ok config
  secretOwned : row.secretID = none ∧ secret = "" ∨
    ∃ held ∈ store.secrets, row.secretID = some held.id ∧ held.orgID = orgID ∧
      held.plain = .ok secret

theorem objectSource_ok {registry : SourceRegistry} {stat : Location → Except String ObjectInfo}
    {input : IngestInput} {location : Location} {source : AuthorizedSource}
    (owner : location.orgID = input.orgID)
    (authorized : objectSource registry stat input location = .ok source) :
    source.config = input.config ∧ (∃ format, source.kind = .format format) ∧
      ∃ row info, RegisteredObject registry stat location row info := by
  unfold objectSource at authorized
  split at authorized
  · rename_i format kind
    split at authorized
    · cases authorized
    · simp only at authorized
      split at authorized
      · cases authorized
      · rename_i row found
        have member : row ∈ registry.rows ∧ row.location.orgID = input.orgID := by
          split at found
          · obtain ⟨byID, same⟩ := Option.filter_eq_some_iff.mp found
            exact ⟨(KeyedTable.mem_of_lookup byID).1, of_decide_eq_true same⟩
          · obtain ⟨inRows, same⟩ := KeyedTable.mem_of_lookup found
            rw [← same] at owner
            exact ⟨inRows, owner⟩
        split at authorized
        · cases authorized
        · rename_i named
          rw [not_or, not_not, not_not] at named
          split at authorized
          · cases authorized
          · rename_i info statted
            split at authorized
            · cases authorized
            · rename_i sameToken
              split at authorized
              · cases authorized
              · rename_i sameSize
                cases authorized
                refine ⟨rfl, ⟨format, kind⟩, row, info, member.1, ?_, statted, ?_, ?_⟩
                · cases location
                  cases within : row.location with
                  | mk orgID bucket key =>
                      rw [within] at named member
                      simp only at named owner member
                      rw [named.1, named.2, member.2, owner]
                · intro recorded
                  by_contra other
                  exact sameToken ⟨recorded, other⟩
                · intro recorded
                  by_contra other
                  exact sameSize ⟨recorded, other⟩
  · cases authorized
  · cases authorized

private theorem secretOf_ok {store : ConnectorStore} {orgID : Int} {row : ConnectorRow}
    {secret : String}
    (loaded : store.secretOf orgID row = .ok secret) :
    row.secretID = none ∧ secret = "" ∨
      ∃ held ∈ store.secrets, row.secretID = some held.id ∧ held.orgID = orgID ∧
        held.plain = .ok secret := by
  unfold ConnectorStore.secretOf at loaded
  split at loaded
  · rename_i absent
    cases loaded
    exact .inl ⟨absent, rfl⟩
  · rename_i secretID present
    split at loaded
    · cases loaded
    · rename_i held found
      have same : held.id = secretID ∧ held.orgID = orgID := by
        have chosen := List.find?_some found
        exact of_decide_eq_true chosen
      split at loaded
      · cases loaded
      · rename_i plain decrypted
        cases loaded
        refine .inr ⟨held, List.mem_of_find?_eq_some found, ?_, same.2, decrypted⟩
        rw [present, same.1]

private theorem connector_ok {store : ConnectorStore} {orgID id : Int} {conn : StoredConnector}
    (loaded : store.connector orgID id = .ok conn) :
    ∃ row, row.id = id ∧ conn.kind = row.kind.toLower ∧
      StoredEndpoint store orgID row conn.config conn.secret := by
  unfold ConnectorStore.connector at loaded
  split at loaded
  · cases loaded
  · rename_i row found
    have same : row.id = id ∧ row.orgID = orgID := by
      have chosen := List.find?_some found
      exact of_decide_eq_true chosen
    split at loaded
    · cases loaded
    · rename_i config decoded
      split at loaded
      · cases loaded
      · rename_i secret held
        cases loaded
        exact ⟨row, same.1, rfl, List.mem_of_find?_eq_some found, same.2, decoded,
          secretOf_ok held⟩

theorem mergedConfig_lookup (stored asked : Data) (keys : List String) {name : String}
    (other : name ∉ keys) : (mergedConfig stored asked keys).lookup name = stored.lookup name := by
  induction keys generalizing stored with
  | nil => rfl
  | cons key rest ih =>
      rw [List.mem_cons, not_or] at other
      unfold mergedConfig
      rw [List.foldl_cons]
      change (mergedConfig _ asked rest).lookup name = _
      rw [ih _ other.2]
      split
      · rw [Data.lookup_set, if_neg other.1]
      · rfl

theorem textField_congr {left right : Data} {name : String}
    (same : left.lookup name = right.lookup name) : textField left name = textField right name := by
  unfold textField
  rw [same]

private theorem sfEndpoint_merged (stored asked : Data) (secret : String) :
    sfEndpoint (mergedConfig stored asked connectorQueryKeys) secret = sfEndpoint stored secret := by
  unfold sfEndpoint
  rw [textField_congr (@mergedConfig_lookup stored asked connectorQueryKeys "tokenUrl" (by decide)),
    textField_congr (@mergedConfig_lookup stored asked connectorQueryKeys "clientId" (by decide)),
    textField_congr
      (@mergedConfig_lookup stored asked connectorQueryKeys "instanceUrl" (by decide))]

private theorem connectorSource_ok {store : ConnectorStore} {input : IngestInput}
    {source : AuthorizedSource}
    (authorized : connectorSource store input = .ok source) :
    ∃ row config secret, StoredEndpoint store input.orgID row config secret ∧
      source.kind = .salesforce ∧ source.secret = secret ∧
      source.config = mergedConfig config input.config connectorQueryKeys := by
  unfold connectorSource at authorized
  split at authorized
  · cases authorized
  · cases authorized
  · rename_i conn loaded
    split at authorized
    · cases authorized
    · cases authorized
      obtain ⟨row, _id, _kind, stored⟩ := connector_ok loaded
      exact ⟨row, conn.config, conn.secret, stored, rfl, rfl, rfl⟩

private theorem authorize_of_ingestSource {registry : SourceRegistry}
    {stat : Location → Except String ObjectInfo}
    {fromConnector : IngestInput → Except SourceRefusal AuthorizedSource} {allowLocalPaths : Bool}
    {input : IngestInput} {source : AuthorizedSource}
    (passed : ingestSource registry stat fromConnector allowLocalPaths input = .ok source) :
    authorize registry stat fromConnector allowLocalPaths input = .ok source := by
  unfold ingestSource at passed
  split at passed
  · cases passed
  · rename_i authorized
    split at passed
    · cases passed
    · cases passed
      exact authorized

/-- With local paths disabled, `authorize` accepts a stored connector or an
object that the configuration names, and nothing else. -/
theorem authorize_cases {registry : SourceRegistry} {stat : Location → Except String ObjectInfo}
    {fromConnector : IngestInput → Except SourceRefusal AuthorizedSource} {input : IngestInput}
    {source : AuthorizedSource}
    (authorized : authorize registry stat fromConnector false input = .ok source) :
    fromConnector input = .ok source ∨
      textField input.config "s3_bucket" ≠ "" ∧ textField input.config "s3_key" ≠ "" ∧
        objectSource registry stat input
          { orgID := input.orgID, bucket := textField input.config "s3_bucket"
            key := textField input.config "s3_key" } = .ok source := by
  unfold authorize at authorized
  split at authorized
  · exact .inl authorized
  · split at authorized
    · cases authorized
    · split at authorized
      · rename_i named
        exact .inr ⟨named.1, named.2, authorized⟩
      · split at authorized
        · rw [if_pos rfl] at authorized
          cases authorized
        · cases authorized

/-- Whatever the input, `Ingest` opens an object that is registered for its
organization, as it is registered, or the endpoint of a connector stored for
it, with its own secret and with nothing changed but the query. -/
theorem ingest_stays_in_organization (registry : SourceRegistry) (store : ConnectorStore)
    (stat : Location → Except String ObjectInfo) (input : IngestInput) {opened : Opened}
    (opens : ingestOpens registry store stat false input = .ok opened) :
    (∃ bucket key row info, opened = .object bucket key ∧
      RegisteredObject registry stat { orgID := input.orgID, bucket := bucket, key := key }
        row info) ∨
    ∃ row config secret merged, StoredEndpoint store input.orgID row config secret ∧
      opened = .salesforce (sfEndpoint config secret) (sfConfig merged) ∧
      (∀ name, name ∉ connectorQueryKeys → merged.lookup name = config.lookup name) ∧
      ∀ (pathEscape queryEscape : String → String) (service : SfService) (limit : Nat)
        (offset : Offset) (batchSize : Int),
        ∀ request ∈ sfRequests (sfConfig merged) service limit offset batchSize,
          (sfEndpoint config secret).url pathEscape queryEscape request =
              textField config "tokenUrl" ∨
            ∃ path, (sfEndpoint config secret).url pathEscape queryEscape request =
              textField config "instanceUrl" ++ "/services/data/v58.0/jobs/query" ++ path := by
  unfold ingestOpens at opens
  split at opens
  · cases opens
  rename_i source passed
  split at opens
  · cases opens
  rename_i found opened'
  cases opens
  rcases authorize_cases (authorize_of_ingestSource passed) with
    connected | ⟨bucketGiven, keyGiven, named⟩
  · right
    obtain ⟨row, config, secret, stored, kind, sameSecret, sameConfig⟩ :=
      connectorSource_ok connected
    unfold openConnector at opened'
    rw [kind, sameSecret, sameConfig] at opened'
    simp only at opened'
    split at opened'
    · cases opened'
    · split at opened'
      · cases opened'
      · cases opened'
        refine ⟨row, config, secret, mergedConfig config input.config connectorQueryKeys, stored,
          ?_, ?_, ?_⟩
        · rw [sfEndpoint_merged]
        · intro name other
          exact mergedConfig_lookup config input.config connectorQueryKeys other
        · intro pathEscape queryEscape service limit offset batchSize request _made
          cases request with
          | token => exact .inl rfl
          | create soql =>
              refine .inr ⟨"", ?_⟩
              rw [String.append_empty]
              rfl
          | state job =>
              refine .inr ⟨"/" ++ pathEscape job, ?_⟩
              simp only [SfEndpoint.url, String.append_assoc]
              rfl
          | results job locator =>
              refine .inr ⟨"/" ++ pathEscape job ++ "/results?maxRecords=2000" ++
                (if locator = "" then "" else "&locator=" ++ queryEscape locator), ?_⟩
              simp only [SfEndpoint.url, String.append_assoc]
              rfl
  · left
    obtain ⟨sameConfig, ⟨format, kind⟩, row, info, registered⟩ := objectSource_ok rfl named
    unfold openConnector openSource at opened'
    rw [kind, sameConfig] at opened'
    simp only at opened'
    rw [if_pos ⟨bucketGiven, keyGiven⟩] at opened'
    cases opened'
    exact ⟨_, _, row, info, rfl, registered⟩

def uploadLocation : Location := { orgID := 1, bucket := "migration", key := "uploads/1/ab/abc" }

def uploadRegistry : SourceRegistry :=
  SourceRegistry.empty.register { location := uploadLocation, etag := "e1", size := 120 }

def uploadInput : IngestInput :=
  { orgID := 1
    kind := .format .csv
    config := [("s3_bucket", .text "migration"), ("s3_key", .text "uploads/1/ab/abc"),
      ("objects", .list [.text "http://other/"])]
    sourceID := 1 }

theorem upload_stays_in_organization :
    ingestOpens uploadRegistry { connectors := [], secrets := [] }
        (fun _ => .ok { etag := "e1", size := 120 }) false uploadInput =
      .ok (.object "migration" "uploads/1/ab/abc") ∧
    ∃ row info, RegisteredObject uploadRegistry (fun _ => .ok { etag := "e1", size := 120 })
      uploadLocation row info := by
  have opens : ingestOpens uploadRegistry { connectors := [], secrets := [] }
      (fun _ => .ok { etag := "e1", size := 120 }) false uploadInput =
        .ok (.object "migration" "uploads/1/ab/abc") := rfl
  refine ⟨opens, ?_⟩
  rcases ingest_stays_in_organization _ _ _ _ opens with
    ⟨bucket, key, row, info, same, registered⟩ | ⟨row, config, secret, merged, _, other, _⟩
  · cases same
    exact ⟨row, info, registered⟩
  · cases other

end MigrationPlatform.Connectors
