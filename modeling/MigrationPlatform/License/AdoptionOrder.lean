/-
The order in which replicas adopt licenses from the store.

What is adopted in place of a usable license has a greater precedence: a trial is
below a commercial license, and of one kind the older attestation is below the
newer one. So the licenses that a replica has had form a rising chain, and what
one replica has left for another license no other replica leaves the other way.
-/

import Mathlib.Data.Prod.Lex
import MigrationPlatform.License.Client

namespace MigrationPlatform.License

open GuardedRuns

def LicenseKind.rank : LicenseKind → Nat
  | .trial => 0
  | .commercial => 1

/-- A license that does not say when it was issued counts as issued at the epoch. -/
def precedence (doc : LicenseDoc) : Nat ×ₗ Int := toLex (doc.kind.rank, doc.issuedAt.getD 0)

private theorem precedence_lt {low high : LicenseDoc} :
    precedence low < precedence high ↔
      low.kind.rank < high.kind.rank ∨
        low.kind.rank = high.kind.rank ∧ low.issuedAt.getD 0 < high.issuedAt.getD 0 :=
  Prod.Lex.toLex_lt_toLex

/-! ### One offer -/

/-- A verified document of the store, and the time at which a replica looks at it. -/
structure Offer (Replica : Type) where
  replica : Replica
  candidate : LicenseDoc
  stamp : Option Nat
  now : Int
deriving Repr

def reloaded (state : LicenseState) (candidate : LicenseDoc) (stamp : Option Nat) (fp : String)
    (now : Int) : LicenseState :=
  if shouldAdopt state candidate fp now = true then activate state candidate stamp
  else { state with storeStamp := stamp }

section Offers

variable {state : LicenseState} {cur candidate : LicenseDoc} {fp : String} {now : Int}
  {stamp : Option Nat}

theorem reloaded_adopts (adopts : shouldAdopt state candidate fp now = true) :
    (reloaded state candidate stamp fp now).doc = some candidate := by
  unfold reloaded
  rw [if_pos adopts]
  rfl

theorem reloaded_keeps (keeps : shouldAdopt state candidate fp now = false) :
    (reloaded state candidate stamp fp now).doc = state.doc := by
  unfold reloaded
  rw [keeps, if_neg Bool.false_ne_true]

theorem precedence_lt_of_adopted (held : state.doc = some cur)
    (usable : problemFor state fp now = none)
    (adopts : shouldAdopt state candidate fp now = true) :
    precedence cur < precedence candidate := by
  unfold shouldAdopt at adopts
  rw [held] at adopts
  dsimp only at adopts
  split at adopts
  · cases adopts
  split at adopts
  · cases adopts
  rw [usable, Option.isSome_none, if_neg Bool.false_ne_true] at adopts
  rw [precedence_lt]
  cases own : cur.kind with
  | trial =>
      cases other : candidate.kind with
      | trial =>
          rw [own, other] at adopts
          exact .inr ⟨rfl, of_decide_eq_true adopts⟩
      | commercial => exact .inl Nat.zero_lt_one
  | commercial =>
      cases other : candidate.kind with
      | trial =>
          rw [own, other] at adopts
          cases adopts
      | commercial =>
          rw [own, other] at adopts
          exact .inr ⟨rfl, of_decide_eq_true adopts⟩

private theorem shouldAdopt_of_unusable_candidate (held : state.doc = some cur)
    (unusable : validity candidate fp now ≠ .ok ()) :
    shouldAdopt state candidate fp now = false := by
  unfold shouldAdopt
  rw [held]
  dsimp only
  split
  · rfl
  · cases valid : validity candidate fp now with
    | error problem => rfl
    | ok done => exact absurd valid unusable

private theorem shouldAdopt_of_unusable_active (held : state.doc = some cur)
    (other : candidate ≠ cur)
    (usable : validity candidate fp now = .ok ()) (problem : problemFor state fp now ≠ none) :
    shouldAdopt state candidate fp now = true := by
  have fine : ¬(validity candidate fp now).isOk = false := by
    rw [usable]
    exact fun impossible => by cases impossible
  unfold shouldAdopt
  rw [held]
  dsimp only
  rw [if_neg other.symm, if_neg fine, if_pos (Option.isSome_iff_ne_none.mpr problem)]

end Offers

section Fleet

variable {Replica : Type} [DecidableEq Replica] (fp : Replica → String)

def offerStep (fleet : Replica → LicenseState) (offer : Offer Replica) : Replica → LicenseState :=
  Function.update fleet offer.replica
    (reloaded (fleet offer.replica) offer.candidate offer.stamp (fp offer.replica) offer.now)

def Usable (fleet : Replica → LicenseState) (offer : Offer Replica) : Prop :=
  (fleet offer.replica).doc ≠ none →
    problemFor (fleet offer.replica) (fp offer.replica) offer.now = none

instance (fleet : Replica → LicenseState) (offer : Offer Replica) :
    Decidable (Usable fp fleet offer) :=
  inferInstanceAs (Decidable (_ → _))

def StayUsable (fleet : Replica → LicenseState) (offers : List (Offer Replica)) : Prop :=
  Obeys (fun fleet offer => some (offerStep fp fleet offer)) (Usable fp) fleet offers

instance (fleet : Replica → LicenseState) (offers : List (Offer Replica)) :
    Decidable (StayUsable fp fleet offers) :=
  Obeys.decidable _ _ fleet offers

def adoptedBy (replica : Replica) :
    (Replica → LicenseState) → List (Offer Replica) → List LicenseDoc
  | _, [] => []
  | fleet, offer :: rest =>
      if offer.replica = replica ∧
          shouldAdopt (fleet replica) offer.candidate (fp replica) offer.now = true then
        offer.candidate :: adoptedBy replica (offerStep fp fleet offer) rest
      else adoptedBy replica (offerStep fp fleet offer) rest

def history (replica : Replica) (fleet : Replica → LicenseState) (offers : List (Offer Replica)) :
    List LicenseDoc :=
  (fleet replica).doc.toList ++ adoptedBy fp replica fleet offers

def Rising (docs : List LicenseDoc) : Prop :=
  docs.Pairwise (fun earlier later => precedence earlier < precedence later)

variable {fp}

private theorem offerStep_other {fleet : Replica → LicenseState} {offer : Offer Replica}
    {replica : Replica}
    (other : offer.replica ≠ replica) : offerStep fp fleet offer replica = fleet replica :=
  Function.update_of_ne (Ne.symm other) _ _

private theorem offerStep_self (fleet : Replica → LicenseState) (offer : Offer Replica) :
    offerStep fp fleet offer offer.replica =
      reloaded (fleet offer.replica) offer.candidate offer.stamp (fp offer.replica) offer.now :=
  Function.update_self _ _ _

theorem history_rising (replica : Replica) (offers : List (Offer Replica)) :
    ∀ fleet, StayUsable fp fleet offers → Rising (history fp replica fleet offers) := by
  induction offers with
  | nil =>
      intro fleet _usable
      unfold history adoptedBy Rising
      rw [List.append_nil]
      cases (fleet replica).doc with
      | none => exact List.Pairwise.nil
      | some cur => exact List.pairwise_singleton _ cur
  | cons offer rest ih =>
      intro fleet usable
      have later := ih (offerStep fp fleet offer) usable.2
      unfold history at later ⊢
      rw [adoptedBy]
      by_cases own : offer.replica = replica
      · subst own
        rw [offerStep_self] at later
        cases decision :
            shouldAdopt (fleet offer.replica) offer.candidate (fp offer.replica) offer.now with
        | false =>
            rw [reloaded_keeps decision] at later
            rw [if_neg (fun both => Bool.false_ne_true both.2)]
            exact later
        | true =>
            rw [reloaded_adopts decision] at later
            rw [if_pos ⟨rfl, rfl⟩]
            -- What was there before is below the candidate, and so below all that follows.
            cases held : (fleet offer.replica).doc with
            | none => exact later
            | some cur =>
                have active := usable.1 (by rw [held]; exact Option.some_ne_none cur)
                have below := precedence_lt_of_adopted held active decision
                refine List.pairwise_cons.mpr ⟨?_, later⟩
                intro doc member
                rcases List.mem_cons.mp member with same | behind
                · rw [same]
                  exact below
                · exact lt_trans below ((List.pairwise_cons.mp later).1 doc behind)
      · rw [offerStep_other own] at later
        rw [if_neg (fun both => own both.1)]
        exact later

theorem Rising.nodup {docs : List LicenseDoc} (rising : Rising docs) : docs.Nodup :=
  rising.imp (fun below same => absurd (same ▸ below) (lt_irrefl _))

theorem Rising.lt_of_sublist {docs : List LicenseDoc} (rising : Rising docs)
    {first second : LicenseDoc} (order : [first, second].Sublist docs) :
    precedence first < precedence second :=
  (List.pairwise_cons.mp (rising.sublist order)).1 second List.mem_cons_self

theorem adoption_never_oscillates (fp : Replica → String) (fleet : Replica → LicenseState)
    (offers : List (Offer Replica)) (usable : StayUsable fp fleet offers) :
    (∀ replica, Rising (history fp replica fleet offers) ∧
        (history fp replica fleet offers).Nodup) ∧
      (∀ left right first second, [first, second].Sublist (history fp left fleet offers) →
        ¬[second, first].Sublist (history fp right fleet offers)) ∧
      ∀ (state : LicenseState) (cur candidate : LicenseDoc) (stamp : Option Nat)
        (localFp : String) (now : Int), state.doc = some cur →
          (validity candidate localFp now ≠ .ok () →
            (reloaded state candidate stamp localFp now).doc = some cur) ∧
          (validity candidate localFp now = .ok () → candidate ≠ cur →
            problemFor state localFp now ≠ none →
              (reloaded state candidate stamp localFp now).doc = some candidate) := by
  have rising : ∀ replica, Rising (history fp replica fleet offers) :=
    fun replica => history_rising replica offers fleet usable
  refine ⟨fun replica => ⟨rising replica, (rising replica).nodup⟩, ?_, ?_⟩
  · intro left right first second there back
    have up := (rising left).lt_of_sublist there
    have down := (rising right).lt_of_sublist back
    exact lt_asymm up down
  · intro state cur candidate stamp localFp now held
    constructor
    · intro unusable
      rw [reloaded_keeps (shouldAdopt_of_unusable_candidate held unusable)]
      exact held
    · intro fine other problem
      exact reloaded_adopts (shouldAdopt_of_unusable_active held other fine problem)

end Fleet

def trialLicense : LicenseDoc :=
  { licensee := "lead@example.com", expiresAt := days 9, issuedAt := some 0, kind := .trial }

def commercialLicense : LicenseDoc :=
  { licensee := "Example", expiresAt := days 365, issuedAt := some (hours 1) }

def exchangedOffers : List (Offer Bool) :=
  [ { replica := false, candidate := commercialLicense, stamp := some 1, now := hours 2 },
    { replica := true, candidate := trialLicense, stamp := some 2, now := hours 2 },
    { replica := false, candidate := trialLicense, stamp := some 3, now := hours 3 },
    { replica := true, candidate := commercialLicense, stamp := some 4, now := hours 4 } ]

def exchangingReplicas : Bool → LicenseState
  | false => { doc := some trialLicense }
  | true => { doc := some commercialLicense }

theorem exchangedOffers_settle :
    history (fun _ => "") false exchangingReplicas exchangedOffers =
        [trialLicense, commercialLicense] ∧
      ¬[commercialLicense, trialLicense].Sublist
        (history (fun _ => "") true exchangingReplicas exchangedOffers) := by
  have order := adoption_never_oscillates (fun _ => "") exchangingReplicas exchangedOffers
    (by decide +kernel)
  have climbs : history (fun _ => "") false exchangingReplicas exchangedOffers =
      [trialLicense, commercialLicense] := by decide +kernel
  exact ⟨climbs, order.2.1 false true trialLicense commercialLicense
    (by rw [climbs])⟩

end MigrationPlatform.License
