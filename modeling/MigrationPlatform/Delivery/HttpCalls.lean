/-
The requests that an attempt of `CallEndpoint` makes and what its servers make
of them.

`send` and `lookupEffect` set their headers one after the other, those of
`resolveAuth` last, and hand the request to a client that follows up to four
redirects. Only the last answer is classified. `successRepeats_iff` says when a
recorded success is an answer to the rendered request, and `secretStays_iff` when
a destination secret reaches no other host and no other header stands in its way.
-/

import MigrationPlatform.Delivery.CallEndpoint
import MigrationPlatform.Foundation.Base64
import MigrationPlatform.Foundation.HttpRedirects

namespace MigrationPlatform.Delivery

open HttpRedirects

structure DestinationAuth where
  type : String
  secretRef : String := ""
  headerName : String := ""
deriving DecidableEq, Repr

/-- The fields of `CallEndpointInput` that only its requests use. The headers
stand in the order in which the maps are read. -/
structure HttpInput extends CallEndpointInput where
  url : String
  headers : List (String × String) := []
  idempotencyHeader : String := ""
  auth : Option DestinationAuth := none
  lookupHeaders : List (String × String) := []
deriving DecidableEq, Repr

abbrev Raw := List UInt8

/-- What the code around the requests is given. `rateLimit` is the error of
waiting for a host, and `found` is whether the path matches a non-null value in
the JSON of a body; `safeJSON` and `excerpt` are read as texts. -/
structure Net (Url : Type) where
  client : Client Url
  parseURL : String → Except String Url
  rateLimit : Url → Option String
  pathError : String → Option String
  found : String → Raw → Except String Bool
  safeJSON : Raw → String
  excerpt : Raw → Nat → String
  quote : String → String

variable {Url : Type}

def secretUnavailable (message : String) : CallError :=
  .application .secretUnavailable message true

def basicCredentials (value : String) : String :=
  String.ofList ((Base64.encode value.toUTF8.toList).map (fun byte => Char.ofNat byte.toNat))

def resolveAuth (quote : String → String) (destinationSecret : Int → String → Except CallError String)
    (input : HttpInput) : Except CallError (Option (String × String)) :=
  match input.auth with
  | none => .ok none
  | some auth =>
      if auth.type = "" then .ok none
      else if auth.secretRef = "" then
        .error (secretUnavailable ("auth type " ++ quote auth.type ++ " requires secretRef"))
      else if auth.type ≠ "bearer" ∧ auth.type ≠ "basic" ∧ auth.type ≠ "api_key" then
        .error (secretUnavailable ("auth type " ++ quote auth.type ++
          " is not supported (use bearer, basic or api_key)"))
      else
        match destinationSecret input.jobID auth.secretRef with
        | .error err => .error err
        | .ok value =>
            if auth.type = "bearer" then .ok (some ("Authorization", "Bearer " ++ value))
            else if auth.type = "basic" then
              if value.toList.contains ':' then
                .ok (some ("Authorization", "Basic " ++ basicCredentials value))
              else
                .error (secretUnavailable ("secret " ++ quote auth.secretRef ++
                  " for basic auth must be user:password"))
            else
              .ok (some (if auth.headerName = "" then "X-API-Key" else auth.headerName, value))

def newRequest (net : Net Url) (method url : String) (body : Option String) :
    Except String (Request Url String) :=
  let wireMethod := if method = "" then "GET" else method
  if wireMethod.toList.all isTokenChar = false then
    .error ("net/http: invalid method " ++ net.quote wireMethod)
  else
    match net.parseURL url with
    | .error message => .error message
    | .ok parsed =>
        .ok { method := wireMethod, url := parsed, header := [], body := body
              rewinds := body.isSome }

/-- Only a step that maps a payload, or renders one, has a body. -/
def HttpInput.sentBody (input : HttpInput) : Option String :=
  if input.hasBody || payloadNonEmpty input.payloadJSON then some input.payloadJSON else none

def HttpInput.ownHeaders (input : HttpInput) : List (String × String) :=
  input.headers ++
    if input.idempotencyHeader ≠ "" ∧ input.idempotencyKey ≠ "" then
      [(input.idempotencyHeader, input.idempotencyKey)]
    else []

def HttpInput.contentType (input : HttpInput) : List (String × String) :=
  if input.sentBody.isSome then [("Content-Type", "application/json")] else []

/-- The names under which `net/http` takes a request for a repeatable one lose
their canonical form. -/
def unrepeatable (key : String) : String :=
  if key = "Idempotency-Key" then "idempotency-key"
  else if key = "X-Idempotency-Key" then "x-idempotency-key"
  else key

def preventTransparentResend (request : Request Url String) : Request Url String :=
  { request with
    rewinds := false
    header := request.header.map (fun field => (unrepeatable field.1, field.2)) }

def sendRequest (net : Net Url) (input : HttpInput) (auth : Option (String × String)) :
    Except String (Request Url String) :=
  match newRequest net input.method input.url input.sentBody with
  | .error message => .error message
  | .ok request =>
      .ok (preventTransparentResend
        { request with
          header := setHeaders [] (input.contentType ++ input.ownHeaders ++ auth.toList) })

def lookupRequest (net : Net Url) (lookup : RenderedLookup) (headers : List (String × String))
    (auth : Option (String × String)) : Except String (Request Url String) :=
  match newRequest net (if lookup.method = "" then "GET" else lookup.method) lookup.url none with
  | .error message => .error message
  | .ok request => .ok { request with header := setHeaders [] (headers ++ auth.toList) }

/-- `CheckRedirect` refuses a redirect once five requests are made. -/
def maxRequests : Nat := 5

abbrev Servers (Url : Type) := List (Request Url String) → Reply Raw

abbrev HttpRun (Url : Type) := Run Url String Raw

def sendResult (net : Net Url) : Outcome Raw → SendResult
  | .answered response =>
      { status := response.status
        body := net.safeJSON response.content
        preview := net.excerpt response.content 300
        wrote := true }
  | .failed wrote message => { wrote := wrote, err := some message }

def send (net : Net Url) (input : HttpInput) (auth : Option (String × String))
    (servers : Servers Url) : SendResult × Option (HttpRun Url) :=
  match sendRequest net input auth with
  | .error message => (neverWrittenResult message, none)
  | .ok request =>
      match net.rateLimit request.url with
      | some message => (neverWrittenResult message, none)
      | none =>
          let run := net.client.fetch maxRequests servers request
          (sendResult net run.outcome, some run)

def lookupReply (net : Net Url) (lookup : RenderedLookup) (run : HttpRun Url) : LookupReply :=
  match run.outcome with
  | .failed _ message => .transportError message
  | .answered response =>
      .response response.status (net.safeJSON response.content) (net.excerpt response.content 200)
        (net.found lookup.foundPath response.content)

def HttpInput.wireMethod (input : HttpInput) : String :=
  if input.method = "" then "GET" else input.method

private theorem newRequest_ok {net : Net Url} {method url : String} {body : Option String}
    {request : Request Url String} (built : newRequest net method url body = .ok request) :
    request.method = (if method = "" then "GET" else method) ∧
      net.parseURL url = .ok request.url ∧ request.body = body ∧
      request.rewinds = body.isSome := by
  unfold newRequest at built
  dsimp only at built
  generalize (if method = "" then "GET" else method) = wireMethod at built ⊢
  split at built
  · cases built
  · split at built
    · cases built
    · rename_i parsed good
      injection built with same
      subst same
      exact ⟨rfl, good, rfl, rfl⟩

theorem sendRequest_ok {net : Net Url} {input : HttpInput} {auth : Option (String × String)}
    {request : Request Url String} (built : sendRequest net input auth = .ok request) :
    request.method = input.wireMethod ∧ net.parseURL input.url = .ok request.url ∧
      request.body = input.sentBody ∧ request.rewinds = false := by
  unfold sendRequest at built
  split at built
  · cases built
  · rename_i made good
    injection built with same
    subst same
    obtain ⟨method, url, body, _⟩ := newRequest_ok good
    exact ⟨method, url, body, rfl⟩

theorem send_run {net : Net Url} {input : HttpInput} {auth : Option (String × String)}
    {servers : Servers Url} {run : HttpRun Url} (ran : (send net input auth servers).2 = some run) :
    ∃ request, sendRequest net input auth = .ok request ∧
      run = net.client.fetch maxRequests servers request ∧
      (send net input auth servers).1 = sendResult net run.outcome := by
  cases built : sendRequest net input auth with
  | error message => simp [send, built] at ran
  | ok request =>
      cases waited : net.rateLimit request.url with
      | some message => simp [send, built, waited] at ran
      | none =>
          simp only [send, built, waited] at ran ⊢
          injection ran with same
          exact ⟨request, rfl, same.symm, by rw [← same]⟩

private theorem send_written {net : Net Url} {input : HttpInput} {auth : Option (String × String)}
    {servers : Servers Url} (written : (send net input auth servers).1.err = none) :
    ∃ run, (send net input auth servers).2 = some run := by
  cases built : sendRequest net input auth with
  | error message => simp [send, built, neverWrittenResult] at written
  | ok request =>
      cases waited : net.rateLimit request.url with
      | some message => simp [send, built, waited, neverWrittenResult] at written
      | none =>
          refine ⟨net.client.fetch maxRequests servers request, ?_⟩
          simp only [send, built, waited]

def Succeeded (exchange : Exchange Url String Raw) : Prop :=
  ∃ response, exchange.reply = .response response ∧
    200 ≤ response.status ∧ response.status < 300

def RecordsSuccess (input : HttpInput) (result : SendResult) : Prop :=
  ((classify result).finishInput input.mode).state = .succeeded

/-- A recorded success is an answer to a request of the rendered method and body,
by the rendered URL or by the target of a redirect. -/
def SuccessRepeats (net : Net Url) (input : HttpInput) (auth : Option (String × String))
    (servers : Servers Url) : Prop :=
  RecordsSuccess input (send net input auth servers).1 →
    ∃ run exchange, (send net input auth servers).2 = some run ∧ exchange ∈ run.exchanges ∧
      Succeeded exchange ∧ exchange.request.method = input.wireMethod ∧
      exchange.request.body = input.sentBody ∧
      (net.parseURL input.url = .ok exchange.request.url ∨ exchange ∈ run.exchanges.tail)

/-- The servers take nothing from the request: it is a GET or HEAD without a body,
no redirect with status 301, 302 or 303 was followed, or nothing succeeded at its
end. -/
def KeepsRequest (net : Net Url) (input : HttpInput) (auth : Option (String × String))
    (servers : Servers Url) : Prop :=
  ∀ run, (send net input auth servers).2 = some run →
    (input.sentBody = none ∧ (input.wireMethod = "GET" ∨ input.wireMethod = "HEAD")) ∨
      (∀ exchange ∈ run.followed, exchange.rewrites = false) ∨ ¬Succeeded run.last

private theorem finishInput_succeeded {mode : DeliveryMode} {result : SendResult}
    (done : ((classify result).finishInput mode).state = .succeeded) :
    result.err = none ∧ 200 ≤ result.status ∧ result.status < 300 := by
  unfold classify at done
  split at done
  · cases done
  · split at done
    · rename_i inRange
      exact inRange
    · split at done
      · cases done
      · by_cases manual : mode = .manual <;> simp [Completion.finishInput, manual] at done

theorem recordsSuccess_iff {input : HttpInput} {result : SendResult} :
    RecordsSuccess input result ↔ result.err = none ∧ 200 ≤ result.status ∧ result.status < 300 := by
  constructor
  · exact finishInput_succeeded
  · intro good
    have notLimited : ¬((result.err.isSome ∧ result.wrote = false) ∨
        (result.err = none ∧ result.status = 429)) := by
      simp only [good.1, Option.isSome_none, Bool.false_eq_true, false_and, true_and, false_or]
      omega
    rw [RecordsSuccess, classify, if_neg notLimited, if_pos good]
    rfl

private theorem redirectBehavior_success {status : Nat} (initial : Request Url String)
    (success : 200 ≤ status ∧ status < 300) (method : String) :
    redirectBehavior method status initial = none := by
  rw [redirectBehavior, if_neg (by omega), if_neg (by omega)]

theorem recordsSuccess_fetch_iff {net : Net Url} {input : HttpInput} {servers : Servers Url}
    {request : Request Url String} :
    RecordsSuccess input (sendResult net (net.client.fetch maxRequests servers request).outcome) ↔
      Succeeded (net.client.fetch maxRequests servers request).last := by
  rw [recordsSuccess_iff]
  constructor
  · intro recorded
    cases outcome : (net.client.fetch maxRequests servers request).outcome with
    | failed wrote message => simp [outcome, sendResult] at recorded
    | answered response =>
        rw [outcome] at recorded
        exact ⟨response, Client.follow_answered net.client servers request _ [] request outcome,
          recorded.2⟩
  · rintro ⟨response, replied, success⟩
    have outcome := Client.follow_final net.client servers request (maxRequests - 1) [] request
      replied (redirectBehavior_success request success)
    rw [show (net.client.fetch maxRequests servers request).outcome = _ from outcome]
    exact ⟨rfl, success⟩

private theorem not_succeeded_of_followed {net : Net Url} {servers : Servers Url}
    {request : Request Url String} {exchange : Exchange Url String Raw}
    (followed : exchange ∈ (net.client.fetch maxRequests servers request).followed) :
    ¬Succeeded exchange := by
  rintro ⟨response, replied, success⟩
  obtain ⟨other, same, status⟩ := Client.follow_status net.client servers request _ [] request
    exchange followed
  rw [replied] at same
  injection same with same
  subst same
  simp only [List.mem_cons, List.not_mem_nil, or_false] at status
  omega

private theorem last_reached {net : Net Url} {servers : Servers Url}
    {request : Request Url String} :
    (net.client.fetch maxRequests servers request).last.request = request ∨
      (net.client.fetch maxRequests servers request).last ∈
        (net.client.fetch maxRequests servers request).exchanges.tail := by
  cases followed : (net.client.fetch maxRequests servers request).followed with
  | nil => exact Or.inl (Client.follow_first net.client servers request _ [] request followed)
  | cons first rest => exact Or.inr (by simp [Run.exchanges, followed])

theorem successRepeats_iff (net : Net Url) (input : HttpInput) (auth : Option (String × String))
    (servers : Servers Url) :
    SuccessRepeats net input auth servers ↔ KeepsRequest net input auth servers := by
  constructor
  · intro repeats run ran
    obtain ⟨request, built, rfl, result⟩ := send_run ran
    obtain ⟨method, _, body, single⟩ := sendRequest_ok built
    by_cases success : Succeeded (net.client.fetch maxRequests servers request).last
    · have recorded : RecordsSuccess input (send net input auth servers).1 := by
        rw [result]
        exact recordsSuccess_fetch_iff.mpr success
      obtain ⟨other, exchange, same, member, succeeded, exchangeMethod, exchangeBody, _⟩ :=
        repeats recorded
      rw [ran] at same
      injection same with same
      subst same
      have last : exchange = (net.client.fetch maxRequests servers request).last := by
        obtain followed | last := List.mem_append.mp member
        · exact absurd succeeded (not_succeeded_of_followed followed)
        · exact List.mem_singleton.mp last
      subst last
      obtain bare | keeps := (Client.fetch_repeats_iff net.client servers request maxRequests
        single).mp ⟨exchangeMethod.trans method.symm, exchangeBody.trans body.symm⟩
      · exact Or.inl ⟨body.symm.trans bare.1, by rw [← method]; exact bare.2⟩
      · exact Or.inr (Or.inl keeps)
    · exact Or.inr (Or.inr success)
  · intro keeps recorded
    obtain ⟨run, ran⟩ := send_written (recordsSuccess_iff.mp recorded).1
    obtain ⟨request, built, rfl, result⟩ := send_run ran
    obtain ⟨method, url, body, single⟩ := sendRequest_ok built
    have success : Succeeded (net.client.fetch maxRequests servers request).last := by
      rw [result] at recorded
      exact recordsSuccess_fetch_iff.mp recorded
    have untouched : request.bare ∨
        ∀ exchange ∈ (net.client.fetch maxRequests servers request).followed,
          exchange.rewrites = false := by
      obtain ⟨noBody, bareMethod⟩ | kept | failed := keeps _ ran
      · exact Or.inl ⟨body.trans noBody, by rw [method]; exact bareMethod⟩
      · exact Or.inr kept
      · exact absurd success failed
    obtain ⟨lastMethod, lastBody⟩ :=
      (Client.fetch_repeats_iff net.client servers request maxRequests single).mpr untouched
    refine ⟨_, _, ran, List.mem_append_right _ (List.mem_singleton_self _), success,
      lastMethod.trans method, lastBody.trans body, ?_⟩
    exact last_reached.imp (fun same => by rw [same]; exact url) id

/-! A destination that answers a POST with a redirect to a page. -/

def hostOf (url : String) : String :=
  String.ofList (((url.toList.dropWhile (fun char => char ≠ '/')).drop 2).takeWhile
    (fun char => char ≠ '/'))

def textNet : Net String where
  client :=
    { resolve := fun _ location => .ok location
      hostname := hostOf
      refusal := "too many redirects" }
  parseURL := .ok
  rateLimit := fun _ => none
  pathError := fun _ => none
  found := fun _ _ => .ok false
  safeJSON := fun _ => "null"
  excerpt := fun _ _ => ""
  quote := id

def postedOrder : HttpInput where
  jobID := 1
  rowIndex := 1
  stepIndex := 0
  stepName := "create"
  method := "POST"
  payloadJSON := "\x7b\"name\":\"Ada\"\x7d"
  hasBody := true
  idempotencyKey := "key"
  url := "https://api.example/orders"

def redirectOnce (status : Nat) (location : String) : Servers String
  | [_] => .response { status := status, location := location, content := [] }
  | _ => .response { status := 200, location := "", content := [] }

def loginRedirect : Servers String := redirectOnce 302 "https://api.example/login"

theorem loginRedirect_run :
    (send textNet postedOrder none loginRedirect).2.map
        (fun run => (run.followed.any Exchange.rewrites, run.last.reply)) =
      some (true, .response { status := 200, location := "", content := [] }) := by
  decide +kernel

/-- The order was never placed: the GET of the page is what succeeded. -/
theorem redirected_post_succeeds : ¬SuccessRepeats textNet postedOrder none loginRedirect := by
  rw [successRepeats_iff]
  intro keeps
  obtain ⟨run, ran, facts⟩ := Option.map_eq_some_iff.mp loginRedirect_run
  injection facts with rewrites replied
  obtain ⟨exchange, member, rewrites⟩ := List.any_eq_true.mp rewrites
  obtain ⟨noBody, _⟩ | kept | failed := keeps run ran
  · cases noBody
  · rw [kept exchange member] at rewrites
    cases rewrites
  · exact failed ⟨_, replied, by decide, by decide⟩

/-! ### The secret -/

/-- One request of the attempt with its redirects. `own` are the headers that the
template, the row and the idempotency setting asked for. -/
structure Fetch (Url : Type) where
  own : List (String × String)
  request : Request Url String
  run : HttpRun Url

def lookupFetch (net : Net Url) (input : HttpInput) (lookup : RenderedLookup)
    (auth : Option (String × String)) (servers : Servers Url) : Except String (Fetch Url) :=
  match net.pathError lookup.foundPath with
  | some message => .error message
  | none =>
      match lookupRequest net lookup input.lookupHeaders auth with
      | .error message => .error message
      | .ok request =>
          .ok { own := input.lookupHeaders, request := request
                run := net.client.fetch maxRequests servers request }

def sendFetch (net : Net Url) (input : HttpInput) (auth : Option (String × String))
    (servers : Servers Url) : Option (Fetch Url) :=
  match sendRequest net input auth with
  | .error _ => none
  | .ok request =>
      (send net input auth servers).2.map
        (fun run => { own := input.ownHeaders, request := request, run := run })

def attemptFetches (net : Net Url) (input : HttpInput) (auth : Option (String × String))
    (decision : DecisionKind) (lookupServers sendServers : Servers Url) : List (Fetch Url) :=
  match decision, input.lookup with
  | .send, _ => (sendFetch net input auth sendServers).toList
  | .lookupThenSend, some lookup =>
      match lookupFetch net input lookup auth lookupServers with
      | .error _ => []
      | .ok fetch =>
          fetch ::
            match lookupEffect (lookupReply net lookup fetch.run) with
            | .absent => (sendFetch net input auth sendServers).toList
            | _ => []
  | _, _ => []

/-- An attempt whose policy needs a lookup that is not there makes none. -/
def callFetches (net : Net Url) (input : HttpInput) (auth : Option (String × String))
    (decision : DecisionKind) (lookupServers sendServers : Servers Url) : List (Fetch Url) :=
  if input.mode = .lookup ∧ input.lookup = none then []
  else attemptFetches net input auth decision lookupServers sendServers

def Carries (request : Request Url String) (name value : String) : Prop :=
  ∃ key, canonicalHeaderKey key = canonicalHeaderKey name ∧ (key, value) ∈ request.header

/-- The names that `net/http` writes from elsewhere and not from the header. -/
def unwritten : List String := ["Host", "Content-Length", "Transfer-Encoding", "Trailer"]

def Wrote (exchange : Exchange Url String Raw) : Prop :=
  ∀ message, exchange.reply ≠ .failed false message

def renderedHosts (net : Net Url) (input : HttpInput) : List String :=
  ((input.url :: (input.lookup.map RenderedLookup.url).toList).filterMap
    (fun url => (net.parseURL url).toOption)).map net.client.hostname

/-- The secret reaches the rendered hosts only, and neither takes the place of
another header nor loses its own. -/
structure Fetch.KeepsSecret (net : Net Url) (hosts : List String) (secret : String × String)
    (fetch : Fetch Url) : Prop where
  confined : ∀ exchange ∈ fetch.run.exchanges, Wrote exchange →
    canonicalHeaderKey secret.1 ∉ unwritten → Carries exchange.request secret.1 secret.2 →
    net.client.hostname exchange.request.url ∈ hosts
  present : Carries fetch.request secret.1 secret.2
  others : ∀ own ∈ setHeaders [] fetch.own, Carries fetch.request own.1 own.2

def SecretStays (net : Net Url) (destinationSecret : Int → String → Except CallError String)
    (input : HttpInput) (decision : DecisionKind) (lookupServers sendServers : Servers Url) : Prop :=
  ∀ secret, resolveAuth net.quote destinationSecret input = .ok (some secret) →
    ∀ fetch ∈ callFetches net input (some secret) decision lookupServers sendServers,
      fetch.KeepsSecret net (renderedHosts net input) secret

/-- Every request that left the rendered hosts was one that drops the header: its
name is sensitive and a redirect had led out of the domain. No other header of the
attempt has the name of the secret's. -/
structure Fetch.Safe (net : Net Url) (hosts : List String) (secret : String × String)
    (fetch : Fetch Url) : Prop where
  dropped : canonicalHeaderKey secret.1 ∉ unwritten → ∀ front exchange back,
    fetch.run.exchanges = front ++ exchange :: back → Wrote exchange →
    net.client.hostname exchange.request.url ∈ hosts ∨
      (isSensitive secret.1 = true ∧
        net.client.strays fetch.request
          (front.map (fun past => past.request.url) ++ [exchange.request.url]) = true)
  apart : ∀ own ∈ setHeaders [] fetch.own, own.1 = canonicalHeaderKey secret.1 → own.2 = secret.2

def SecretSafe (net : Net Url) (destinationSecret : Int → String → Except CallError String)
    (input : HttpInput) (decision : DecisionKind) (lookupServers sendServers : Servers Url) : Prop :=
  ∀ secret, resolveAuth net.quote destinationSecret input = .ok (some secret) →
    ∀ fetch ∈ callFetches net input (some secret) decision lookupServers sendServers,
      fetch.Safe net (renderedHosts net input) secret

/-- How a request of the attempt is made: its header is set in one go, under names
that stay the same up to spelling, and the client fetches it. -/
def Fetch.Built (net : Net Url) (secret : String × String) (fetch : Fetch Url) : Prop :=
  ∃ (before : List (String × String)) (rename : String → String) (servers : Servers Url),
    (∀ key, canonicalHeaderKey (rename key) = canonicalHeaderKey key) ∧
    fetch.request.header = (setHeaders [] (before ++ fetch.own ++ [secret])).map
      (fun field => (rename field.1, field.2)) ∧
    fetch.run = net.client.fetch maxRequests servers fetch.request

private theorem canonicalHeaderKey_unrepeatable (key : String) :
    canonicalHeaderKey (unrepeatable key) = canonicalHeaderKey key := by
  unfold unrepeatable
  split
  · rename_i same
    rw [same]
    decide +kernel
  · split
    · rename_i same
      rw [same]
      decide +kernel
    · rfl

private theorem sendFetch_built {net : Net Url} {input : HttpInput} {secret : String × String}
    {servers : Servers Url} {fetch : Fetch Url}
    (made : sendFetch net input (some secret) servers = some fetch) : fetch.Built net secret := by
  cases built : sendRequest net input (some secret) with
  | error message => simp [sendFetch, built] at made
  | ok request =>
      simp only [sendFetch, built, Option.map_eq_some_iff] at made
      obtain ⟨run, ran, rfl⟩ := made
      obtain ⟨other, same, rfl, _⟩ := send_run ran
      rw [built] at same
      injection same with same
      subst same
      refine ⟨input.contentType, unrepeatable, servers, canonicalHeaderKey_unrepeatable, ?_, rfl⟩
      cases fresh : newRequest net input.method input.url input.sentBody with
      | error message => simp [sendRequest, fresh] at built
      | ok blank =>
          simp only [sendRequest, fresh] at built
          injection built with same
          rw [← same]
          rfl

private theorem lookupFetch_built {net : Net Url} {input : HttpInput} {lookup : RenderedLookup}
    {secret : String × String} {servers : Servers Url} {fetch : Fetch Url}
    (made : lookupFetch net input lookup (some secret) servers = .ok fetch) :
    fetch.Built net secret := by
  unfold lookupFetch at made
  split at made
  · cases made
  · split at made
    · cases made
    · rename_i request built
      injection made with same
      subst same
      refine ⟨[], id, servers, fun _ => rfl, ?_, rfl⟩
      unfold lookupRequest at built
      split at built
      · cases built
      · injection built with same
        rw [← same]
        simp

theorem callFetches_built {net : Net Url} {input : HttpInput} {secret : String × String}
    {decision : DecisionKind} {lookupServers sendServers : Servers Url} :
    ∀ fetch ∈ callFetches net input (some secret) decision lookupServers sendServers,
      fetch.Built net secret := by
  have sent : ∀ fetch ∈ (sendFetch net input (some secret) sendServers).toList,
      fetch.Built net secret :=
    fun fetch member => sendFetch_built (Option.mem_toList.mp member)
  intro fetch member
  unfold callFetches at member
  split at member
  · cases member
  · unfold attemptFetches at member
    split at member
    · exact sent fetch member
    · split at member
      · cases member
      · rename_i looked made
        cases member with
        | head => exact lookupFetch_built made
        | tail _ member =>
            split at member
            · exact sent fetch member
            · cases member
    · cases member

section Built

variable {net : Net Url} {secret : String × String} {fetch : Fetch Url}

theorem Fetch.Built.carries_iff (built : fetch.Built net secret) :
    ∃ before : List (String × String), ∀ name value,
      (Carries fetch.request name value ↔
        ∃ key, canonicalHeaderKey key = canonicalHeaderKey name ∧
          (((key, value) ∈ setHeaders [] (before ++ fetch.own) ∧
              key ≠ canonicalHeaderKey secret.1) ∨
            (key, value) = (canonicalHeaderKey secret.1, secret.2))) := by
  obtain ⟨before, rename, servers, respects, header, _⟩ := built
  refine ⟨before, ?_⟩
  intro name value
  have last : setHeaders [] (before ++ fetch.own ++ [secret]) =
      setHeader (setHeaders [] (before ++ fetch.own)) secret.1 secret.2 :=
    setHeaders_append [] (before ++ fetch.own) [secret]
  rw [Carries, header, last]
  constructor
  · rintro ⟨key, spelled, member⟩
    obtain ⟨⟨key, other⟩, set, same⟩ := List.mem_map.mp member
    cases same
    exact ⟨key, (respects key).symm.trans spelled, mem_setHeader.mp set⟩
  · rintro ⟨key, spelled, set⟩
    exact ⟨rename key, (respects key).trans spelled,
      List.mem_map.mpr ⟨(key, value), mem_setHeader.mpr set, rfl⟩⟩

theorem Fetch.Built.present (built : fetch.Built net secret) :
    Carries fetch.request secret.1 secret.2 := by
  obtain ⟨before, carries⟩ := built.carries_iff
  exact (carries secret.1 secret.2).mpr
    ⟨canonicalHeaderKey secret.1, canonicalHeaderKey_idem secret.1, Or.inr rfl⟩

theorem Fetch.Built.others_iff (built : fetch.Built net secret) :
    (∀ own ∈ setHeaders [] fetch.own, Carries fetch.request own.1 own.2) ↔
      ∀ own ∈ setHeaders [] fetch.own, own.1 = canonicalHeaderKey secret.1 → own.2 = secret.2 := by
  obtain ⟨before, carries⟩ := built.carries_iff
  have canonical : ∀ fields : List (String × String), ∀ field ∈ setHeaders [] fields,
      canonicalHeaderKey field.1 = field.1 :=
    fun fields => setHeaders_canonical fields [] (fun field impossible => nomatch impossible)
  constructor
  · intro all own member same
    obtain ⟨key, spelled, ⟨kept, other⟩ | last⟩ := (carries own.1 own.2).mp (all own member)
    · rw [canonical _ _ member] at spelled
      have held : key = own.1 := (canonical _ (key, own.2) kept).symm.trans spelled
      exact absurd (held.trans same) other
    · exact (Prod.mk.inj last).2
  · intro apart own member
    apply (carries own.1 own.2).mpr
    refine ⟨own.1, rfl, ?_⟩
    by_cases same : own.1 = canonicalHeaderKey secret.1
    · exact Or.inr (Prod.ext same (apart own member same))
    · refine Or.inl ⟨?_, same⟩
      rw [setHeaders_append]
      exact setHeaders_mono fetch.own [] _ (fun field impossible => nomatch impossible) own member

theorem Fetch.Built.carried_iff (built : fetch.Built net secret)
    {front back : List (Exchange Url String Raw)} {exchange : Exchange Url String Raw}
    (split : fetch.run.exchanges = front ++ exchange :: back) :
    Carries exchange.request secret.1 secret.2 ↔
      ¬(isSensitive secret.1 = true ∧
        net.client.strays fetch.request
          (front.map (fun past => past.request.url) ++ [exchange.request.url]) = true) := by
  have sentWith := built.present
  obtain ⟨before, rename, servers, _, _, ran⟩ := built
  rw [ran] at split
  have home : fetch.request.header = net.client.carried fetch.request [fetch.request.url] := by
    rw [Client.carried, if_neg]
    simp [Client.strays, isDomainOrSubdomain]
  have header := Client.follow_header net.client servers fetch.request (maxRequests - 1) home
    front exchange back split
  rw [Carries, header, Client.carried]
  constructor
  · rintro ⟨key, spelled, member⟩ ⟨sensitive, strayed⟩
    rw [if_pos strayed, List.mem_filter] at member
    have kept := member.2
    rw [isSensitive, spelled, ← isSensitive, sensitive] at kept
    cases kept
  · intro handed
    obtain ⟨key, spelled, member⟩ := sentWith
    refine ⟨key, spelled, ?_⟩
    split
    · rename_i strayed
      have plain : isSensitive secret.1 = false := by
        rw [← Bool.not_eq_true]
        exact fun sensitive => handed ⟨sensitive, strayed⟩
      refine List.mem_filter.mpr ⟨member, ?_⟩
      rw [isSensitive, spelled, ← isSensitive, plain]
      rfl
    · exact member

theorem Fetch.Built.keepsSecret_iff (built : fetch.Built net secret) (hosts : List String) :
    fetch.KeepsSecret net hosts secret ↔ fetch.Safe net hosts secret := by
  constructor
  · intro keeps
    refine ⟨?_, built.others_iff.mp keeps.others⟩
    intro writable front exchange back split wrote
    by_cases drops : isSensitive secret.1 = true ∧ net.client.strays fetch.request
        (front.map (fun past => past.request.url) ++ [exchange.request.url]) = true
    · exact Or.inr drops
    · left
      apply keeps.confined exchange ?_ wrote writable ((built.carried_iff split).mpr drops)
      rw [split]
      exact List.mem_append_right _ List.mem_cons_self
  · intro safe
    refine ⟨?_, built.present, built.others_iff.mpr safe.apart⟩
    intro exchange member wrote writable carries
    obtain ⟨front, back, split⟩ := List.append_of_mem member
    exact (safe.dropped writable front exchange back split wrote).resolve_right
      ((built.carried_iff split).mp carries)

end Built

theorem secretStays_iff (net : Net Url) (destinationSecret : Int → String → Except CallError String)
    (input : HttpInput) (decision : DecisionKind) (lookupServers sendServers : Servers Url) :
    SecretStays net destinationSecret input decision lookupServers sendServers ↔
      SecretSafe net destinationSecret input decision lookupServers sendServers := by
  constructor
  · intro stays secret resolved fetch member
    exact ((callFetches_built fetch member).keepsSecret_iff _).mp (stays secret resolved fetch member)
  · intro safe secret resolved fetch member
    exact ((callFetches_built fetch member).keepsSecret_iff _).mpr (safe secret resolved fetch member)

def keyedOrder : HttpInput :=
  { postedOrder with auth := some { type := "api_key", secretRef := "orders" } }

def ordersSecret (_ : Int) (_ : String) : Except CallError String := .ok "k-123"

def strangerRedirect : Servers String := redirectOnce 302 "https://other.example/"

private theorem strangerRedirect_sends :
    (sendFetch textNet keyedOrder (some ("X-API-Key", "k-123")) strangerRedirect).map
        (fun fetch => fetch.run.last) =
      some
        { request :=
            { method := "GET"
              url := "https://other.example/"
              header := [("Content-Type", "application/json"), ("X-Api-Key", "k-123")]
              body := none
              rewinds := false }
          reply := .response { status := 200, location := "", content := [] } } := by
  decide +kernel

/-- An API key is handed to whatever host a redirect names. -/
theorem api_key_follows_redirect :
    ¬SecretStays textNet ordersSecret keyedOrder .send strangerRedirect strangerRedirect := by
  intro stays
  obtain ⟨fetch, made, last⟩ := Option.map_eq_some_iff.mp strangerRedirect_sends
  have member : fetch ∈ callFetches textNet keyedOrder (some ("X-API-Key", "k-123")) .send
      strangerRedirect strangerRedirect := Option.mem_toList.mpr made
  have keeps := stays ("X-API-Key", "k-123") rfl fetch member
  have reached := keeps.confined fetch.run.last
    (List.mem_append_right _ (List.mem_singleton_self _))
    (fun message => by rw [last]; exact fun impossible => nomatch impossible)
    (by decide +kernel)
    ⟨"X-Api-Key", by decide +kernel, by rw [last]; decide⟩
  rw [last] at reached
  exact absurd reached (by decide +kernel)

end MigrationPlatform.Delivery
