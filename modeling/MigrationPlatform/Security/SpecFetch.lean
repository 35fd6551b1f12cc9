/-
The import of a specification by URL.

`fetch_spec` looks the host up and refuses private addresses; the HTTP client then
looks it up again, and looks up the host of every redirect that it follows. What
is checked are the answers to the first look-up, what is dialed are those to the
others. So an internal host is reached by a name whose answer changes, or by a
redirect.
-/

import MigrationPlatform.Foundation.Utf8
import MigrationPlatform.Security.AddressFilters

namespace MigrationPlatform.Security

/-- `host_str`, and the address where the host is one. The text of an address of
sixteen octets is in brackets. -/
structure UrlHost where
  text : String
  literal : Option IpAddr
deriving DecidableEq

structure FetchUrl where
  scheme : String
  host : Option UrlHost
deriving DecidableEq

inductive FetchReply
  | failed (message : String)
  | redirect (next : FetchUrl)
  | answered (status : Nat) (body : Except String Utf8.Bytes)

/-- What the resolver and the servers do during one fetch: the answer to each
look-up, which of the answered addresses the client tries, and the reply of each
server. Look-up 0 is that of the check, look-up `n + 1` that of request `n`. -/
structure FetchNetwork where
  resolve : Nat → String → Except String (List IpAddr)
  tried : Nat → List IpAddr → List IpAddr
  tried_subset : ∀ n addrs, tried n addrs ⊆ addrs
  reply : Nat → FetchReply

inductive FetchError
  | badRequest (message : String)
  | external (message : String)
deriving DecidableEq, Repr

structure FetchCrates (Spec : Type) where
  parseUrl : String → Except String FetchUrl
  fromSlice : Utf8.Bytes → Except String Spec

def maxSpecBytes : Nat := 4 * 1024 * 1024

/-! ### The check -/

section Check

variable (net : FetchNetwork)

/-- `tokio::net::lookup_host`: of addresses it reads those of four octets itself. -/
def lookupHost (host : UrlHost) : Except String (List IpAddr) :=
  match host.literal with
  | some (.v4 a b c d) => .ok [.v4 a b c d]
  | _ => net.resolve 0 host.text

def guardUrl (parsed : FetchUrl) : Except FetchError Unit :=
  match parsed.host with
  | none => .error (.badRequest "url missing host")
  | some host =>
      match lookupHost net host with
      | .error message => .error (.badRequest ("cannot resolve " ++ host.text ++ ": " ++ message))
      | .ok addrs =>
          if addrs.any ipIsPrivate = true then
            .error (.badRequest
              ("url host " ++ host.text ++ " resolves to a private/internal address"))
          else .ok ()

def checkUrl {Spec : Type} (crates : FetchCrates Spec) (allowPrivate : Bool) (url : String) :
    Except FetchError FetchUrl :=
  match crates.parseUrl url with
  | .error message => .error (.badRequest ("invalid url: " ++ message))
  | .ok parsed =>
      if parsed.scheme ≠ "https" ∧ parsed.scheme ≠ "http" then
        .error (.badRequest "url must be http(s)")
      else if allowPrivate = true then .ok parsed
      else
        match guardUrl net parsed with
        | .error problem => .error problem
        | .ok () => .ok parsed

def dialAddrs (n : Nat) (url : FetchUrl) : Except String (List IpAddr) :=
  match url.host with
  | none => .error "builder error"
  | some host =>
      match host.literal with
      | some ip => .ok [ip]
      | none => net.resolve (n + 1) host.text

def triedAddrs (n : Nat) (url : FetchUrl) : List IpAddr :=
  match dialAddrs net n url with
  | .error _ => []
  | .ok addrs => net.tried n addrs

structure Sent where
  dialed : List IpAddr
  reply : Except String (Nat × Except String Utf8.Bytes)

/-- The client sends request `n` and follows at most `left` redirects. -/
def sendRequest : (left n : Nat) → FetchUrl → Sent
  | left, n, url =>
      match dialAddrs net n url with
      | .error message => { dialed := [], reply := .error message }
      | .ok addrs =>
          match net.reply n with
          | .failed message => { dialed := net.tried n addrs, reply := .error message }
          | .answered status body => { dialed := net.tried n addrs, reply := .ok (status, body) }
          | .redirect next =>
              match left with
              | 0 => { dialed := net.tried n addrs, reply := .error "too many redirects" }
              | left + 1 =>
                  let rest := sendRequest left (n + 1) next
                  { rest with dialed := net.tried n addrs ++ rest.dialed }

def redirectLimit : Nat := 3

def readSpec {Spec : Type} (crates : FetchCrates Spec) :
    Except String (Nat × Except String Utf8.Bytes) → Except FetchError Spec
  | .error message => .error (.external ("fetch spec: " ++ message))
  | .ok (status, body) =>
      if ¬(200 ≤ status ∧ status < 300) then
        .error (.external ("fetch spec: status " ++ toString status))
      else
        match body with
        | .error message => .error (.external ("read spec: " ++ message))
        | .ok bytes =>
            if maxSpecBytes < bytes.length then .error (.badRequest "spec too large")
            else
              match crates.fromSlice bytes with
              | .ok spec => .ok spec
              | .error message =>
                  .error (.badRequest ("spec is not valid JSON: " ++ message ++
                    " (YAML specs must be converted to JSON)"))

structure Fetched (Spec : Type) where
  dialed : List IpAddr
  result : Except FetchError Spec

def fetchSpec {Spec : Type} (crates : FetchCrates Spec) (allowPrivate : Bool) (url : String) :
    Fetched Spec :=
  match checkUrl net crates allowPrivate url with
  | .error problem => { dialed := [], result := .error problem }
  | .ok parsed =>
      let sent := sendRequest net redirectLimit 0 parsed
      { dialed := sent.dialed, result := readSpec crates sent.reply }

end Check

def StaysOutside {Spec : Type} (fetched : Fetched Spec) : Prop :=
  ∀ ip ∈ fetched.dialed, ipIsPrivate ip = false

inductive Requested (net : FetchNetwork) (target : FetchUrl) : Nat → FetchUrl → Prop
  | first : Requested net target 0 target
  | next {n : Nat} {url following : FetchUrl} {addrs : List IpAddr} :
      Requested net target n url → n < redirectLimit → dialAddrs net n url = .ok addrs →
      net.reply n = .redirect following → Requested net target (n + 1) following

def Rebinds (net : FetchNetwork) (target : FetchUrl) : Prop :=
  ∃ host checked, target.host = some host ∧ lookupHost net host = .ok checked ∧
    ∃ ip ∈ triedAddrs net 0 target, ip ∉ checked ∧ ipIsPrivate ip = true

/-- A redirect is followed to a host of which the client tries an internal address. -/
def LedInside (net : FetchNetwork) (target : FetchUrl) : Prop :=
  ∃ n url, Requested net target (n + 1) url ∧
    ∃ ip ∈ triedAddrs net (n + 1) url, ipIsPrivate ip = true

section Requests

variable {net : FetchNetwork} {target url : FetchUrl} {n left : Nat} {ip : IpAddr}

private theorem triedAddrs_subset : triedAddrs net n url ⊆ (sendRequest net left n url).dialed := by
  unfold triedAddrs sendRequest
  intro ip member
  cases dialed : dialAddrs net n url with
  | error message =>
      rw [dialed] at member
      cases member
  | ok addrs =>
      rw [dialed] at member
      dsimp only at member ⊢
      cases net.reply n with
      | failed message => exact member
      | answered status body => exact member
      | redirect next =>
          cases left with
          | zero => exact member
          | succ left => exact List.mem_append_left _ member

private theorem requested_dialed (requested : Requested net target n url) :
    (sendRequest net (redirectLimit - n) n url).dialed ⊆
      (sendRequest net redirectLimit 0 target).dialed := by
  induction requested with
  | first => exact List.Subset.refl _
  | @next n url following addrs requested below dialed replied ih =>
      obtain ⟨left, room⟩ : ∃ left, redirectLimit - n = left + 1 :=
        ⟨redirectLimit - n - 1, by omega⟩
      have rest : redirectLimit - (n + 1) = left := by omega
      rw [rest]
      refine List.Subset.trans ?_ ih
      rw [room]
      intro ip member
      rw [sendRequest, dialed]
      dsimp only
      rw [replied]
      exact List.mem_append_right _ member

theorem exists_requested (requested : Requested net target n url)
    (room : left = redirectLimit - n) (member : ip ∈ (sendRequest net left n url).dialed) :
    ∃ m other, Requested net target m other ∧ ip ∈ triedAddrs net m other := by
  induction left generalizing n url with
  | zero =>
      rw [sendRequest] at member
      cases dialed : dialAddrs net n url with
      | error message =>
          rw [dialed] at member
          cases member
      | ok addrs =>
          have own : triedAddrs net n url = net.tried n addrs := by
            rw [triedAddrs, dialed]
          rw [dialed] at member
          cases replied : net.reply n <;> rw [replied] at member <;>
            exact ⟨n, url, requested, own ▸ member⟩
  | succ left ih =>
      rw [sendRequest] at member
      cases dialed : dialAddrs net n url with
      | error message =>
          rw [dialed] at member
          cases member
      | ok addrs =>
          have own : triedAddrs net n url = net.tried n addrs := by
            rw [triedAddrs, dialed]
          rw [dialed] at member
          cases replied : net.reply n with
          | failed message =>
              rw [replied] at member
              exact ⟨n, url, requested, own ▸ member⟩
          | answered status body =>
              rw [replied] at member
              exact ⟨n, url, requested, own ▸ member⟩
          | redirect next =>
              rw [replied] at member
              rcases List.mem_append.mp member with here | behind
              · exact ⟨n, url, requested, own ▸ here⟩
              · exact ih (requested.next (by omega) dialed replied) (by omega) behind

theorem mem_dialed_iff :
    ip ∈ (sendRequest net redirectLimit 0 target).dialed ↔
      ∃ n url, Requested net target n url ∧ ip ∈ triedAddrs net n url := by
  constructor
  · exact exists_requested .first rfl
  · rintro ⟨n, url, requested, member⟩
    exact requested_dialed requested (triedAddrs_subset member)

theorem guardUrl_ok (passed : guardUrl net target = .ok ()) :
    ∃ host checked, target.host = some host ∧ lookupHost net host = .ok checked ∧
      ∀ ip ∈ checked, ipIsPrivate ip = false := by
  unfold guardUrl at passed
  cases named : target.host with
  | none =>
      rw [named] at passed
      cases passed
  | some host =>
      rw [named] at passed
      dsimp only at passed
      cases looked : lookupHost net host with
      | error message =>
          rw [looked] at passed
          cases passed
      | ok checked =>
          rw [looked] at passed
          dsimp only at passed
          split at passed
          · cases passed
          · rename_i clean
            refine ⟨host, checked, rfl, looked, ?_⟩
            rw [List.any_eq_true] at clean
            intro ip member
            cases private_ : ipIsPrivate ip with
            | false => rfl
            | true => exact absurd ⟨ip, member, private_⟩ clean

private theorem checkUrl_guarded {Spec : Type} {crates : FetchCrates Spec} {text : String}
    (accepted : checkUrl net crates false text = .ok target) : guardUrl net target = .ok () := by
  unfold checkUrl at accepted
  split at accepted
  · cases accepted
  · split at accepted
    · cases accepted
    · rw [if_neg Bool.false_ne_true] at accepted
      split at accepted
      · cases accepted
      · rename_i passed
        cases accepted
        exact passed

theorem staysOutside_iff (passed : guardUrl net target = .ok ()) :
    (∀ ip ∈ (sendRequest net redirectLimit 0 target).dialed, ipIsPrivate ip = false) ↔
      ¬Rebinds net target ∧ ¬LedInside net target := by
  obtain ⟨host, checked, named, looked, clean⟩ := guardUrl_ok passed
  constructor
  · intro outside
    have public_ : ∀ n url, Requested net target n url → ∀ ip ∈ triedAddrs net n url,
        ipIsPrivate ip ≠ true := by
      intro n url requested ip member
      rw [outside ip (mem_dialed_iff.mpr ⟨n, url, requested, member⟩)]
      exact Bool.false_ne_true
    constructor
    · rintro ⟨_host, _checked, _named, _looked, ip, member, _unseen, inside⟩
      exact public_ 0 target .first ip member inside
    · rintro ⟨n, url, requested, ip, member, inside⟩
      exact public_ (n + 1) url requested ip member inside
  · rintro ⟨steady, straight⟩ ip member
    obtain ⟨n, url, requested, tried⟩ := mem_dialed_iff.mp member
    cases inside : ipIsPrivate ip with
    | false => rfl
    | true =>
        exfalso
        cases n with
        | succ n => exact straight ⟨n, url, requested, ip, tried, inside⟩
        | zero =>
            cases requested
            apply steady
            refine ⟨host, checked, named, looked, ip, tried, ?_, inside⟩
            intro seen
            rw [clean ip seen] at inside
            cases inside

end Requests

/-- An import stays outside if and only if the check refuses it, or no name is
bound anew to an internal address and no redirect leads to one. -/
theorem fetchSpec_staysOutside_iff {Spec : Type} (net : FetchNetwork) (crates : FetchCrates Spec)
    (url : String) :
    StaysOutside (fetchSpec net crates false url) ↔
      ∀ target, checkUrl net crates false url = .ok target →
        ¬Rebinds net target ∧ ¬LedInside net target := by
  unfold StaysOutside fetchSpec
  cases checked : checkUrl net crates false url with
  | error problem =>
      refine iff_of_true ?_ (fun target impossible => by cases impossible)
      exact fun ip impossible => by cases impossible
  | ok parsed =>
      have both := staysOutside_iff (checkUrl_guarded checked)
      constructor
      · intro outside target same
        cases same
        exact both.mp outside
      · intro condition
        exact both.mpr (condition parsed rfl)

/-! ### A name that is bound anew, and a redirect -/

def specHost : FetchUrl :=
  { scheme := "https", host := some { text := "specs.example.com", literal := none } }

def metadataHost : FetchUrl :=
  { scheme := "http",
    host := some { text := "169.254.169.254", literal := some (.v4 169 254 169 254) } }

def publicAddr : IpAddr := .v4 93 184 216 34

def specCrates : FetchCrates Unit where
  parseUrl := fun text =>
    if text = "https://specs.example.com/openapi.json" then .ok specHost
    else .error "relative URL without a base"
  fromSlice := fun _ => .ok ()

def rebindingNetwork : FetchNetwork where
  resolve := fun n _ => if n = 0 then .ok [publicAddr] else .ok [.v4 127 0 0 1]
  tried := fun _ addrs => addrs.take 1
  tried_subset := fun _ addrs => List.take_subset 1 addrs
  reply := fun _ => .answered 200 (.ok [])

def redirectingNetwork : FetchNetwork where
  resolve := fun _ _ => .ok [publicAddr]
  tried := fun _ addrs => addrs.take 1
  tried_subset := fun _ addrs => List.take_subset 1 addrs
  reply := fun n => if n = 0 then .redirect metadataHost else .answered 200 (.ok [])

theorem fetchSpec_dials_internal :
    ¬StaysOutside (fetchSpec rebindingNetwork specCrates false
        "https://specs.example.com/openapi.json") ∧
      ¬StaysOutside (fetchSpec redirectingNetwork specCrates false
        "https://specs.example.com/openapi.json") := by
  constructor
  · intro outside
    have loopback := outside (.v4 127 0 0 1) (by decide)
    exact absurd loopback (by decide)
  · intro outside
    have metadata := outside (.v4 169 254 169 254) (by decide)
    exact absurd metadata (by decide)

end MigrationPlatform.Security
