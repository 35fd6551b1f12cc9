/-
Signed licenses.

The document that a license file carries, when it is usable, and the checks of
names that the API and the license server share. Instants are nanoseconds since
the epoch. Signatures are ideal: a file is the document that it verifies to, or
it does not verify.
-/

import MigrationPlatform.Batch.Manifest

namespace MigrationPlatform.License

open Batch (isSpaceRune trimRunes)

inductive LicenseKind
  | trial
  | commercial
deriving DecidableEq, Repr

structure LicenseDoc where
  licensee : String
  expiresAt : Int
  features : List String := []
  maxSeats : Option Nat := none
  issuedAt : Option Int := none
  kind : LicenseKind := .commercial
  fingerprint : Option String := none
  requiresHeartbeat : Bool := false
deriving DecidableEq, Repr

inductive LicenseProblem
  | expired
  | fingerprintMismatch
  | heartbeatGraceExpired
  | missingIssuedAt
  | revoked
deriving DecidableEq, Repr

def hours (n : Int) : Int := n * 3600000000000

def days (n : Int) : Int := hours (24 * n)

def heartbeatInterval : Int := hours 24

def heartbeatGrace : Int := hours 72

def heartbeatRetry : Int := hours 1

/-- An empty `localFp` stands for one that is not available. -/
def validity (doc : LicenseDoc) (localFp : String) (now : Int) : Except LicenseProblem Unit :=
  if doc.expiresAt ≤ now then .error .expired
  else if localFp ≠ "" ∧ doc.fingerprint.isSome ∧ doc.fingerprint ≠ some localFp then
    .error .fingerprintMismatch
  else if doc.requiresHeartbeat = true then
    match doc.issuedAt with
    | none => .error .missingIssuedAt
    | some issued =>
        if now - issued > heartbeatGrace then .error .heartbeatGraceExpired else .ok ()
  else .ok ()

inductive VerifyError
  | invalid
  | expired (licensee : String) (expiresAt : Int)
deriving DecidableEq, Repr

/-- `verify_license` on a file, which reads the clock itself. -/
def verifyLicense (file : Option LicenseDoc) (now : Int) : Except VerifyError LicenseDoc :=
  match file with
  | none => .error .invalid
  | some doc =>
      if doc.expiresAt ≤ now then .error (.expired doc.licensee doc.expiresAt) else .ok doc

theorem verifyLicense_ok {file : Option LicenseDoc} {now : Int} {doc : LicenseDoc}
    (verified : verifyLicense file now = .ok doc) : file = some doc ∧ now < doc.expiresAt := by
  unfold verifyLicense at verified
  split at verified
  · cases verified
  · split at verified
    · cases verified
    · rename_i held alive
      cases verified
      refine ⟨rfl, ?_⟩
      omega

/-! ### Names -/

def isHexDigit (c : Char) : Bool :=
  c.isDigit || ('a' ≤ c && c ≤ 'f') || ('A' ≤ c && c ≤ 'F')

def normalizeFingerprint (raw : String) : Except String String :=
  let fp := String.ofList ((trimRunes raw.toList).map Char.toLower)
  if fp.utf8ByteSize < 16 ∨ fp.utf8ByteSize > 128 ∨ fp.toList.all isHexDigit = false then
    .error "fingerprint must be 16–128 hex chars"
  else .ok fp

def isControl (c : Char) : Bool := c.toNat < 0x20 || (0x7F ≤ c.toNat && c.toNat < 0xA0)

def splitAddress (email : List Char) : Option (List Char × List Char) :=
  let domain := (email.reverse.takeWhile (fun c => c != '@')).reverse
  if domain.length = email.length then none
  else some (email.take (email.length - domain.length - 1), domain)

def validateTrialEmail (raw : String) : Except String String :=
  let email := (trimRunes raw.toList).map Char.toLower
  let size := (String.ofList email).utf8ByteSize
  if size < 6 ∨ size > 254 then .error "email must be between 6 and 254 characters"
  else if email.any (fun c => isSpaceRune c || isControl c) = true then
    .error "email must not contain whitespace"
  else
    match splitAddress email with
    | none => .error "email must contain '@'"
    | some (user, domain) =>
        if user.isEmpty || domain.isEmpty || user.contains '@' then
          .error "email has an empty local part or domain"
        else
          let labels := domain.splitOn '.'
          if labels.length < 2 ∨
              labels.any (fun label =>
                label.isEmpty || !label.all (fun c => c.isAlphanum || c == '-')) = true then
            .error "email domain must be a dotted hostname"
          else .ok (String.ofList email)

example : validateTrialEmail "  Lead@Example.com " = .ok "lead@example.com" ∧
    (validateTrialEmail "lead@localhost").isOk = false := by
  decide +kernel

end MigrationPlatform.License
