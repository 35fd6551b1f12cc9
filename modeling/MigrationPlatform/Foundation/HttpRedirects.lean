/-
An HTTP client that follows redirects.

A redirect answered with 301, 302 or 303 is followed with GET, or with HEAD where
the request was one, and without a body. One answered with 307 or 308 keeps the
method and sends the body again, which takes a body that can be rewound. Every
request that follows carries the headers of the first, without the sensitive ones
once a redirect has led to a host that is not in the domain of the first.

The servers are a function of all the requests made so far. A run lists the
exchanges whose redirect was followed and the last one.
-/

import Mathlib.Data.List.Basic

namespace HttpRedirects

abbrev Header := List (String × String)

def isTokenChar (char : Char) : Bool :=
  char.isAlphanum || "!#$%&'*+-.^_\x60|~".toList.contains char

def canonicalChars (upper : Bool) : List Char → List Char
  | [] => []
  | char :: rest =>
      (if upper then char.toUpper else char.toLower) :: canonicalChars (char = '-') rest

/-- A name with a character that is none of a token stays as it is. -/
def canonicalHeaderKey (name : String) : String :=
  if name.toList.all isTokenChar then String.ofList (canonicalChars true name.toList) else name

def setHeader (header : Header) (name value : String) : Header :=
  header.filter (fun field => field.1 ≠ canonicalHeaderKey name) ++ [(canonicalHeaderKey name, value)]

def setHeaders (header : Header) (fields : List (String × String)) : Header :=
  fields.foldl (fun header field => setHeader header field.1 field.2) header

def sensitiveHeaders : List String := ["Authorization", "Www-Authenticate", "Cookie"]

def isSensitive (key : String) : Bool := sensitiveHeaders.contains (canonicalHeaderKey key)

theorem mem_setHeader {header : Header} {name value : String} {field : String × String} :
    field ∈ setHeader header name value ↔
      (field ∈ header ∧ field.1 ≠ canonicalHeaderKey name) ∨
        field = (canonicalHeaderKey name, value) := by
  simp [setHeader]

theorem toUpper_cases (char : Char) :
    (97 ≤ char.toNat ∧ char.toNat ≤ 122 ∧ char.toUpper.toNat + 32 = char.toNat) ∨
      char.toUpper = char := by
  unfold Char.toUpper
  split
  · rename_i lower
    simp only [UInt32.le_iff_toNat_le] at lower
    have atLeast : 97 ≤ char.val.toNat := lower.1
    have atMost : char.val.toNat ≤ 122 := lower.2
    refine Or.inl ⟨atLeast, atMost, ?_⟩
    change (char.val + ('A'.val - 'a'.val)).toNat + 32 = char.val.toNat
    have shift : ('A'.val - 'a'.val).toNat = 4294967264 := by decide
    rw [UInt32.toNat_add, shift]
    omega
  · exact Or.inr rfl

theorem toLower_cases (char : Char) :
    (65 ≤ char.toNat ∧ char.toNat ≤ 90 ∧ char.toLower.toNat = char.toNat + 32) ∨
      char.toLower = char := by
  unfold Char.toLower
  split
  · rename_i upper
    simp only [ge_iff_le, UInt32.le_iff_toNat_le] at upper
    have atLeast : 65 ≤ char.val.toNat := upper.1
    have atMost : char.val.toNat ≤ 90 := upper.2
    refine Or.inl ⟨atLeast, atMost, ?_⟩
    change (char.val + ('a'.val - 'A'.val)).toNat = char.val.toNat + 32
    have shift : ('a'.val - 'A'.val).toNat = 32 := by decide
    rw [UInt32.toNat_add, shift]
    omega
  · exact Or.inr rfl

theorem recase_recase (upper : Bool) (char : Char) :
    (if upper then (if upper then char.toUpper else char.toLower).toUpper
      else (if upper then char.toUpper else char.toLower).toLower) =
        if upper then char.toUpper else char.toLower := by
  cases upper with
  | true =>
      change char.toUpper.toUpper = char.toUpper
      obtain ⟨_, _, first⟩ | same := toUpper_cases char
      · obtain ⟨_, _, second⟩ | same := toUpper_cases char.toUpper
        · omega
        · exact same
      · rw [same, same]
  | false =>
      change char.toLower.toLower = char.toLower
      obtain ⟨_, _, first⟩ | same := toLower_cases char
      · obtain ⟨_, _, second⟩ | same := toLower_cases char.toLower
        · omega
        · exact same
      · rw [same, same]

theorem recase_eq_hyphen (upper : Bool) (char : Char) :
    (if upper then char.toUpper else char.toLower) = '-' ↔ char = '-' := by
  have hyphen : '-'.toNat = 45 := rfl
  constructor
  · intro same
    cases upper with
    | true =>
        obtain ⟨_, _, moved⟩ | kept := toUpper_cases char
        · change char.toUpper = '-' at same
          rw [same, hyphen] at moved
          omega
        · exact kept.symm.trans same
    | false =>
        obtain ⟨_, _, moved⟩ | kept := toLower_cases char
        · change char.toLower = '-' at same
          rw [same, hyphen] at moved
          omega
        · exact kept.symm.trans same
  · rintro rfl
    cases upper <;> rfl

theorem canonicalChars_idem (chars : List Char) :
    ∀ upper, canonicalChars upper (canonicalChars upper chars) = canonicalChars upper chars := by
  induction chars with
  | nil => intro upper; rfl
  | cons char rest ih =>
      intro upper
      simp only [canonicalChars, recase_recase, recase_eq_hyphen, ih]

theorem canonicalHeaderKey_idem (name : String) :
    canonicalHeaderKey (canonicalHeaderKey name) = canonicalHeaderKey name := by
  by_cases token : name.toList.all isTokenChar = true
  · have first : canonicalHeaderKey name = String.ofList (canonicalChars true name.toList) :=
      if_pos token
    rw [first, canonicalHeaderKey, String.toList_ofList, canonicalChars_idem, ite_self]
  · have first : canonicalHeaderKey name = name := if_neg token
    rw [first, first]

theorem setHeaders_append (header : Header) (first second : List (String × String)) :
    setHeaders header (first ++ second) = setHeaders (setHeaders header first) second :=
  List.foldl_append

theorem setHeaders_mono (fields : List (String × String)) :
    ∀ less more : Header, (∀ field ∈ less, field ∈ more) →
      ∀ field ∈ setHeaders less fields, field ∈ setHeaders more fields := by
  induction fields with
  | nil => intro less more within; exact within
  | cons first rest ih =>
      intro less more within
      refine ih _ _ ?_
      intro field member
      rw [mem_setHeader] at member ⊢
      exact member.imp (fun kept => ⟨within field kept.1, kept.2⟩) id

theorem setHeaders_canonical (fields : List (String × String)) :
    ∀ header : Header, (∀ field ∈ header, canonicalHeaderKey field.1 = field.1) →
      ∀ field ∈ setHeaders header fields, canonicalHeaderKey field.1 = field.1 := by
  induction fields with
  | nil => intro header canonical; exact canonical
  | cons first rest ih =>
      intro header canonical
      refine ih _ ?_
      intro field member
      rw [mem_setHeader] at member
      obtain kept | rfl := member
      · exact canonical field kept.1
      · exact canonicalHeaderKey_idem first.1

/-- `rewinds` is set where the body can be read again for another request. -/
structure Request (Url Body : Type) where
  method : String
  url : Url
  header : Header
  body : Option Body
  rewinds : Bool
deriving DecidableEq, Repr

/-- An absent `Location` is empty. -/
structure Response (Content : Type) where
  status : Nat
  location : String
  content : Content
deriving DecidableEq, Repr

/-- A request that failed has been `wrote` once its headers reached the
connection. -/
inductive Reply (Content : Type)
  | response (response : Response Content)
  | failed (wrote : Bool) (message : String)
deriving DecidableEq, Repr

structure Exchange (Url Body Content : Type) where
  request : Request Url Body
  reply : Reply Content
deriving DecidableEq, Repr

inductive Outcome (Content : Type)
  | answered (response : Response Content)
  | failed (wrote : Bool) (message : String)
deriving DecidableEq, Repr

structure Run (Url Body Content : Type) where
  followed : List (Exchange Url Body Content)
  last : Exchange Url Body Content
  outcome : Outcome Content
deriving DecidableEq, Repr

/-- `resolve` reads a location relative to the URL that it came from, and
`refusal` is the error of a client that follows no more redirects. -/
structure Client (Url : Type) where
  resolve : Url → String → Except String Url
  hostname : Url → String
  refusal : String

variable {Url Body Content : Type}

def Run.exchanges (run : Run Url Body Content) : List (Exchange Url Body Content) :=
  run.followed ++ [run.last]

def redirectBehavior (method : String) (status : Nat) (initial : Request Url Body) :
    Option (String × Bool) :=
  if status = 301 ∨ status = 302 ∨ status = 303 then
    some (if method ≠ "GET" ∧ method ≠ "HEAD" then "GET" else method, false)
  else if status = 307 ∨ status = 308 then
    if initial.rewinds = false ∧ initial.body.isSome = true then none else some (method, true)
  else none

def isDomainOrSubdomain (sub parent : String) : Bool :=
  decide (sub = parent) ||
    (!sub.toList.contains ':' && !sub.toList.contains '%' &&
      ('.' :: parent.toList).isSuffixOf sub.toList)

def Client.strays (client : Client Url) (initial : Request Url Body) (urls : List Url) : Bool :=
  urls.any (fun url => !isDomainOrSubdomain (client.hostname url) (client.hostname initial.url))

def Client.carried (client : Client Url) (initial : Request Url Body) (urls : List Url) : Header :=
  if client.strays initial urls then initial.header.filter (fun field => !isSensitive field.1)
  else initial.header

inductive Step (Url Body Content : Type)
  | done (outcome : Outcome Content)
  | redirect (request : Request Url Body)
deriving DecidableEq, Repr

/-- What the client does with the reply to `request`, which it sent after the
requests `before`. -/
def Client.step (client : Client Url) (initial : Request Url Body)
    (before : List (Request Url Body)) (request : Request Url Body) :
    Reply Content → Step Url Body Content
  | .failed wrote message => .done (.failed (wrote || !before.isEmpty) message)
  | .response response =>
      match redirectBehavior request.method response.status initial with
      | none => .done (.answered response)
      | some (method, includeBody) =>
          if response.location = "" then .done (.answered response)
          else
            match client.resolve request.url response.location with
            | .error message => .done (.failed true message)
            | .ok url =>
                .redirect
                  { method := method
                    url := url
                    header := client.carried initial
                      (before.map Request.url ++ [request.url] ++ [url])
                    body := if includeBody && initial.rewinds then initial.body else none
                    rewinds := includeBody && initial.rewinds }

/-- `left` is how many redirects the client still follows. -/
def Client.follow (client : Client Url) (servers : List (Request Url Body) → Reply Content)
    (initial : Request Url Body) :
    Nat → List (Request Url Body) → Request Url Body → Run Url Body Content
  | left, before, request =>
      let exchange : Exchange Url Body Content := ⟨request, servers (before ++ [request])⟩
      match client.step initial before request exchange.reply, left with
      | .done outcome, _ => { followed := [], last := exchange, outcome := outcome }
      | .redirect _, 0 =>
          { followed := [], last := exchange, outcome := .failed true client.refusal }
      | .redirect next, left + 1 =>
          let rest := client.follow servers initial left (before ++ [request]) next
          { rest with followed := exchange :: rest.followed }

/-- The client checks each redirect against the number of requests it has made
and refuses it from `limit` on. -/
def Client.fetch (client : Client Url) (limit : Nat)
    (servers : List (Request Url Body) → Reply Content) (request : Request Url Body) :
    Run Url Body Content :=
  client.follow servers request (limit - 1) [] request

/-! ### What one redirect does -/

theorem redirectBehavior_some {method next : String} {status : Nat} {includeBody : Bool}
    {initial : Request Url Body}
    (redirects : redirectBehavior method status initial = some (next, includeBody)) :
    (status ∈ [301, 302, 303] ∧ includeBody = false ∧
        next = if method ≠ "GET" ∧ method ≠ "HEAD" then "GET" else method) ∨
      (status ∈ [307, 308] ∧ (initial.rewinds = true ∨ initial.body = none) ∧
        includeBody = true ∧ next = method) := by
  unfold redirectBehavior at redirects
  split at redirects
  · rename_i drops
    cases redirects
    exact Or.inl ⟨by simpa using drops, rfl, rfl⟩
  · split at redirects
    · rename_i keeps
      split at redirects
      · cases redirects
      · rename_i again
        cases redirects
        refine Or.inr ⟨by simpa using keeps, ?_, rfl, rfl⟩
        cases rewinds : initial.rewinds with
        | true => exact Or.inl rfl
        | false => exact Or.inr (by simpa [rewinds] using again)
    · cases redirects

theorem Client.step_redirect {client : Client Url} {initial : Request Url Body}
    {before : List (Request Url Body)} {request next : Request Url Body} {reply : Reply Content}
    (redirects : client.step initial before request reply = .redirect next) :
    ∃ response method includeBody,
      reply = .response response ∧
      redirectBehavior request.method response.status initial = some (method, includeBody) ∧
      next.method = method ∧
      next.header =
        client.carried initial (before.map Request.url ++ [request.url] ++ [next.url]) ∧
      next.body = (if includeBody && initial.rewinds then initial.body else none) := by
  cases reply with
  | failed wrote message => cases redirects
  | response response =>
      simp only [Client.step] at redirects
      cases behavior : redirectBehavior request.method response.status initial with
      | none => rw [behavior] at redirects; cases redirects
      | some next =>
          obtain ⟨method, includeBody⟩ := next
          rw [behavior] at redirects
          dsimp only at redirects
          split at redirects
          · cases redirects
          · split at redirects
            · cases redirects
            · injection redirects with same
              subst same
              exact ⟨response, method, includeBody, rfl, behavior, rfl, rfl, rfl⟩

theorem Client.step_answered {client : Client Url} {initial : Request Url Body}
    {before : List (Request Url Body)} {request : Request Url Body} {reply : Reply Content}
    {response : Response Content}
    (done : client.step initial before request reply = .done (.answered response)) :
    reply = .response response := by
  cases reply with
  | failed wrote message => simp [Client.step] at done
  | response other =>
      simp only [Client.step] at done
      split at done
      · injection done with same
        injection same with same
        rw [same]
      · split at done
        · injection done with same
          injection same with same
          rw [same]
        · split at done <;> simp at done

/-- The induction over a run: it ends with the request, or it follows a redirect
and goes on from there. -/
theorem Client.follow_induct {client : Client Url}
    {servers : List (Request Url Body) → Reply Content} {initial : Request Url Body}
    {Holds : List (Request Url Body) → Request Url Body → Run Url Body Content → Prop}
    (ends : ∀ before request outcome,
      (∀ response, outcome = .answered response →
        servers (before ++ [request]) = .response response) →
      (∀ response, servers (before ++ [request]) = .response response →
        redirectBehavior request.method response.status initial = none →
        outcome = .answered response) →
      Holds before request ⟨[], ⟨request, servers (before ++ [request])⟩, outcome⟩)
    (follows : ∀ before request next rest,
      client.step initial before request (servers (before ++ [request])) = .redirect next →
      Holds (before ++ [request]) next rest →
      Holds before request
        ⟨⟨request, servers (before ++ [request])⟩ :: rest.followed, rest.last, rest.outcome⟩) :
    ∀ left before request, Holds before request (client.follow servers initial left before request) := by
  have finished : ∀ before request outcome,
      client.step initial before request (servers (before ++ [request])) = .done outcome →
        Holds before request ⟨[], ⟨request, servers (before ++ [request])⟩, outcome⟩ := by
    intro before request outcome turn
    refine ends before request outcome ?_ ?_
    · intro response same
      exact Client.step_answered (same ▸ turn)
    · intro response same final
      simp only [Client.step, same, final] at turn
      injection turn with turn
      exact turn.symm
  intro left
  induction left with
  | zero =>
      intro before request
      unfold Client.follow
      dsimp only
      cases turn : client.step initial before request (servers (before ++ [request])) with
      | done outcome => exact finished before request outcome turn
      | redirect next =>
          refine ends before request _ ?_ ?_
          · intro response impossible
            cases impossible
          · intro response same final
            simp [Client.step, same, final] at turn
  | succ left ih =>
      intro before request
      unfold Client.follow
      dsimp only
      cases turn : client.step initial before request (servers (before ++ [request])) with
      | done outcome => exact finished before request outcome turn
      | redirect next => exact follows before request next _ turn (ih (before ++ [request]) next)

variable (client : Client Url) (servers : List (Request Url Body) → Reply Content)
  (initial : Request Url Body)

theorem Client.follow_answered (left : Nat) (before : List (Request Url Body))
    (request : Request Url Body) {response : Response Content}
    (answered : (client.follow servers initial left before request).outcome = .answered response) :
    (client.follow servers initial left before request).last.reply = .response response := by
  refine @Client.follow_induct Url Body Content client servers initial
    (fun _ _ run => run.outcome = .answered response → run.last.reply = .response response)
    ?_ ?_ left before request answered
  · intro before request outcome known _ same
    exact known response same
  · intro before request next rest _ ih
    exact ih

theorem Client.follow_final (left : Nat) (before : List (Request Url Body))
    (request : Request Url Body) {response : Response Content}
    (replied : (client.follow servers initial left before request).last.reply = .response response)
    (final : ∀ method, redirectBehavior method response.status initial = none) :
    (client.follow servers initial left before request).outcome = .answered response := by
  refine @Client.follow_induct Url Body Content client servers initial
    (fun _ _ run => run.last.reply = .response response → run.outcome = .answered response)
    ?_ ?_ left before request replied
  · intro before request outcome _ known replied
    exact known response replied (final request.method)
  · intro before request next rest _ ih
    exact ih

theorem Client.follow_first (left : Nat) (before : List (Request Url Body))
    (request : Request Url Body) :
    (client.follow servers initial left before request).followed = [] →
      (client.follow servers initial left before request).last.request = request := by
  refine @Client.follow_induct Url Body Content client servers initial
    (fun _ request run => run.followed = [] → run.last.request = request)
    ?_ ?_ left before request
  · intro before request outcome _ _ _
    rfl
  · intro before request next rest _ _ impossible
    cases impossible

theorem Client.follow_status (left : Nat) (before : List (Request Url Body))
    (request : Request Url Body) :
    ∀ exchange ∈ (client.follow servers initial left before request).followed,
      ∃ response, exchange.reply = .response response ∧
        response.status ∈ [301, 302, 303, 307, 308] := by
  refine @Client.follow_induct Url Body Content client servers initial
    (fun _ _ run => ∀ exchange ∈ run.followed, ∃ response, exchange.reply = .response response ∧
      response.status ∈ [301, 302, 303, 307, 308]) ?_ ?_ left before request
  · intro before request outcome _ _ exchange member
    cases member
  · intro before request next rest turn ih exchange member
    cases member with
    | tail _ later => exact ih exchange later
    | head =>
        obtain ⟨response, method, includeBody, replied, behavior, _⟩ := Client.step_redirect turn
        refine ⟨response, replied, ?_⟩
        have statuses := redirectBehavior_some behavior
        simp only [List.mem_cons, List.not_mem_nil, or_false] at statuses ⊢
        omega

theorem Client.follow_all {Holds : List (Request Url Body) → Request Url Body → Prop}
    (turn : ∀ before request (reply : Reply Content) next, Holds before request →
      client.step initial before request reply = .redirect next →
      Holds (before ++ [request]) next)
    (left : Nat) (before : List (Request Url Body)) (request : Request Url Body)
    (start : Holds before request) :
    ∀ front exchange back,
      (client.follow servers initial left before request).exchanges = front ++ exchange :: back →
      Holds (before ++ front.map Exchange.request) exchange.request := by
  revert start
  refine @Client.follow_induct Url Body Content client servers initial
    (fun before request run => Holds before request → ∀ front exchange back,
      run.exchanges = front ++ exchange :: back →
      Holds (before ++ front.map Exchange.request) exchange.request) ?_ ?_ left before request
  · intro before request outcome _ _ start front exchange back split
    cases front with
    | nil =>
        injection split with same _
        rw [← same]
        simpa using start
    | cons first front =>
        injection split with _ rest
        simp at rest
  · intro before request next rest redirects ih start front exchange back split
    cases front with
    | nil =>
        injection split with same _
        rw [← same]
        simpa using start
    | cons first front =>
        injection split with same others
        have later := ih (turn before request _ next start redirects) front exchange back others
        rw [← same]
        simpa using later

theorem Client.follow_header (left : Nat) {request : Request Url Body}
    (start : request.header = client.carried initial [request.url]) :
    ∀ front exchange back,
      (client.follow servers initial left [] request).exchanges = front ++ exchange :: back →
      exchange.request.header =
        client.carried initial (front.map (fun past => past.request.url) ++ [exchange.request.url]) := by
  intro front exchange back split
  have reached := @Client.follow_all Url Body Content client servers initial
    (fun before request =>
      request.header = client.carried initial (before.map Request.url ++ [request.url]))
    (fun before request reply next _ redirects => by
      obtain ⟨response, method, includeBody, _, _, _, header, _⟩ := Client.step_redirect redirects
      simpa using header)
    left [] request (by simpa using start) front exchange back split
  simpa [Function.comp_def] using reached

/-! ### Which requests are repeated -/

def Request.bare (request : Request Url Body) : Prop :=
  request.body = none ∧ (request.method = "GET" ∨ request.method = "HEAD")

def Request.repeats (request initial : Request Url Body) : Prop :=
  request.method = initial.method ∧ request.body = initial.body

def Exchange.rewrites (exchange : Exchange Url Body Content) : Bool :=
  match exchange.reply with
  | .response response => [301, 302, 303].contains response.status
  | .failed _ _ => false

theorem Client.step_of_not_rewinds {client : Client Url} {initial : Request Url Body}
    {before : List (Request Url Body)} {request next : Request Url Body} {reply : Reply Content}
    (single : initial.rewinds = false)
    (redirects : client.step initial before request reply = .redirect next) :
    next.body = none ∧
      ((Exchange.rewrites ⟨request, reply⟩ = true ∧
          next.method = if request.method ≠ "GET" ∧ request.method ≠ "HEAD" then "GET"
            else request.method) ∨
        (Exchange.rewrites ⟨request, reply⟩ = false ∧ next.method = request.method ∧
          initial.body = none)) := by
  obtain ⟨response, method, includeBody, replied, behavior, sameMethod, _, body⟩ :=
    Client.step_redirect redirects
  refine ⟨by rw [body, single, Bool.and_false, if_neg Bool.false_ne_true], ?_⟩
  obtain ⟨status, _, chosen⟩ | ⟨status, again, _, chosen⟩ := redirectBehavior_some behavior
  · refine Or.inl ⟨?_, by rw [sameMethod, chosen]⟩
    simpa [Exchange.rewrites, replied] using status
  · refine Or.inr ⟨?_, by rw [sameMethod, chosen], again.resolve_left (by simp [single])⟩
    simp only [Exchange.rewrites, replied]
    simp only [List.mem_cons, List.not_mem_nil, or_false] at status
    obtain same | same := status <;> simp [same]

theorem Client.follow_bare (single : initial.rewinds = false) (left : Nat)
    (before : List (Request Url Body)) (request : Request Url Body)
    (lost : request.bare ∨
      ∃ exchange ∈ (client.follow servers initial left before request).followed,
        exchange.rewrites = true) :
    (client.follow servers initial left before request).last.request.bare := by
  revert lost
  refine @Client.follow_induct Url Body Content client servers initial
    (fun _ request run => (request.bare ∨ ∃ exchange ∈ run.followed, exchange.rewrites = true) →
      run.last.request.bare) ?_ ?_ left before request
  · intro before request outcome _ _ lost
    exact lost.resolve_right (by simp)
  · intro before request next rest redirects ih lost
    obtain ⟨noBody, method⟩ := Client.step_of_not_rewinds single redirects
    apply ih
    obtain ⟨_, bareMethod⟩ | ⟨exchange, member, rewrites⟩ := lost
    · refine Or.inl ⟨noBody, ?_⟩
      obtain ⟨_, chosen⟩ | ⟨_, chosen, _⟩ := method
      · rw [chosen]
        split
        · exact Or.inl rfl
        · exact bareMethod
      · rw [chosen]
        exact bareMethod
    · cases member with
      | tail _ later => exact Or.inr ⟨exchange, later, rewrites⟩
      | head =>
          obtain ⟨_, chosen⟩ | ⟨keeps, _⟩ := method
          · refine Or.inl ⟨noBody, ?_⟩
            rw [chosen]
            split
            · exact Or.inl rfl
            · rename_i other
              by_cases get : request.method = "GET"
              · exact Or.inl get
              · exact Or.inr (Classical.not_not.mp (fun head => other ⟨get, head⟩))
          · rw [rewrites] at keeps
            cases keeps

theorem Client.follow_repeats (single : initial.rewinds = false) (left : Nat)
    (before : List (Request Url Body)) (request : Request Url Body)
    (start : request.repeats initial)
    (kept : initial.bare ∨
      ∀ exchange ∈ (client.follow servers initial left before request).followed,
        exchange.rewrites = false) :
    (client.follow servers initial left before request).last.request.repeats initial := by
  revert start kept
  refine @Client.follow_induct Url Body Content client servers initial
    (fun _ request run => request.repeats initial →
      (initial.bare ∨ ∀ exchange ∈ run.followed, exchange.rewrites = false) →
      run.last.request.repeats initial) ?_ ?_ left before request
  · intro before request outcome _ _ start _
    exact start
  · intro before request next rest redirects ih start kept
    obtain ⟨noBody, method⟩ := Client.step_of_not_rewinds single redirects
    obtain ⟨rewrites, chosen⟩ | ⟨_, chosen, initialBody⟩ := method
    · obtain ⟨initialBody, bareMethod⟩ | keeps := kept
      · refine ih ⟨?_, noBody.trans initialBody.symm⟩ (Or.inl ⟨initialBody, bareMethod⟩)
        rw [chosen, start.1]
        obtain get | head := bareMethod
        · rw [get, if_neg (fun other => other.1 rfl)]
        · rw [head, if_neg (fun other => other.2 rfl)]
      · have impossible := keeps _ List.mem_cons_self
        rw [rewrites] at impossible
        cases impossible
    · refine ih ⟨chosen.trans start.1, noBody.trans initialBody.symm⟩ ?_
      exact kept.imp id (fun keeps exchange member => keeps exchange (List.mem_cons_of_mem _ member))

theorem Client.fetch_repeats_iff (limit : Nat) (single : initial.rewinds = false) :
    (client.fetch limit servers initial).last.request.repeats initial ↔
      initial.bare ∨
        ∀ exchange ∈ (client.fetch limit servers initial).followed, exchange.rewrites = false := by
  constructor
  · intro same
    by_cases lost : ∃ exchange ∈ (client.fetch limit servers initial).followed,
        exchange.rewrites = true
    · left
      have bare := Client.follow_bare client servers initial single (limit - 1) [] initial
        (Or.inr lost)
      exact ⟨same.2.symm.trans bare.1, by rw [← same.1]; exact bare.2⟩
    · right
      intro exchange member
      rw [← Bool.not_eq_true]
      exact fun rewrites => lost ⟨exchange, member, rewrites⟩
  · exact Client.follow_repeats client servers initial single (limit - 1) [] initial ⟨rfl, rfl⟩

end HttpRedirects
