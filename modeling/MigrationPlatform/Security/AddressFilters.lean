/-
The two filters that keep requests away from internal hosts.

The API tests the addresses of a specification's host with `ip_is_private`
before it fetches it; the orchestrator tests the address that it dials with
`IPBlocked`. The first goes by the bits of either family, the second by a list
of blocks in which an IPv4-mapped address counts as the IPv4 address.
-/

import MigrationPlatform.Foundation.PrefixBlocks

namespace MigrationPlatform.Security

open PrefixBlocks

inductive IpAddr
  | v4 (a b c d : Octet)
  | v6 (octets : Vector Octet 16)
deriving DecidableEq

def segment0 (octets : Vector Octet 16) : BitVec 16 := octets[0] ++ octets[1]

def ipIsPrivate : IpAddr → Bool
  | .v4 a b c d =>
      a == 127 ||
        (a == 10 || (a == 172 && decide (16 ≤ b.toNat ∧ b.toNat ≤ 31)) || (a == 192 && b == 168)) ||
        (a == 169 && b == 254) ||
        number [a, b, c, d] == 0 ||
        (a == 100 && decide (64 ≤ b.toNat ∧ b.toNat < 128))
  | .v6 octets =>
      number octets.toList == 1 || number octets.toList == 0 ||
        (segment0 octets &&& 0xfe00#16) == 0xfc00#16 ||
        (segment0 octets &&& 0xffc0#16) == 0xfe80#16

structure IPNet where
  ip : List Octet
  ones : Nat

def cidrMask : Nat → Nat → List Octet
  | _, 0 => []
  | ones, count + 1 =>
      if 8 ≤ ones then 0xff#8 :: cidrMask (ones - 8) count
      else ~~~(0xff#8 >>> ones) :: cidrMask 0 count

def blockedNets4 : List IPNet :=
  [ { ip := [127, 0, 0, 0], ones := 8 },
    { ip := [10, 0, 0, 0], ones := 8 },
    { ip := [172, 16, 0, 0], ones := 12 },
    { ip := [192, 168, 0, 0], ones := 16 },
    { ip := [169, 254, 0, 0], ones := 16 },
    { ip := [100, 64, 0, 0], ones := 10 },
    { ip := [0, 0, 0, 0], ones := 8 } ]

def blockedNets6 : List IPNet :=
  [ { ip := List.replicate 15 0 ++ [1], ones := 128 },
    { ip := 0xfc :: List.replicate 15 0, ones := 7 },
    { ip := 0xfe :: 0x80 :: List.replicate 14 0, ones := 10 } ]

def blockedNets : List IPNet := blockedNets4 ++ blockedNets6

def v4InV6Prefix : List Octet := List.replicate 10 0 ++ [0xff, 0xff]

def to4 (ip : List Octet) : Option (List Octet) :=
  if ip.length = 4 then some ip
  else if ip.length = 16 ∧ ip.take 12 = v4InV6Prefix then some (ip.drop 12)
  else none

def IPNet.contains (net : IPNet) (ip : List Octet) : Bool :=
  let own := (to4 ip).getD ip
  own.length == net.ip.length &&
    List.zipWith (· &&& ·) net.ip (cidrMask net.ones net.ip.length) ==
      List.zipWith (· &&& ·) own (cidrMask net.ones own.length)

/-- A text that `net.ParseIP` cannot read, such as an address with a zone, is nil. -/
def ipBlocked : Option (List Octet) → Bool
  | none => true
  | some ip => blockedNets.any (fun net => net.contains ip)

/-- `net.ParseIP` of the address in the form in which the dialer reports it. -/
def IpAddr.parsed : IpAddr → List Octet
  | .v4 a b c d => v4InV6Prefix ++ [a, b, c, d]
  | .v6 octets => octets.toList

/-- Loopback, RFC 1918, link-local, CGNAT and `0.0.0.0/8`. -/
def Internal4 (a b : Octet) : Prop :=
  a = 127 ∨ a = 10 ∨ (a = 172 ∧ 16 ≤ b.toNat ∧ b.toNat ≤ 31) ∨ (a = 192 ∧ b = 168) ∨
    (a = 169 ∧ b = 254) ∨ (a = 100 ∧ 64 ≤ b.toNat ∧ b.toNat < 128) ∨ a = 0

instance (a b : Octet) : Decidable (Internal4 a b) := by
  unfold Internal4
  infer_instance

def Internal6 (octets : List Octet) : Prop :=
  number octets = 0 ∨ number octets = 1 ∨ leading 7 octets = 0x7e ∨ leading 10 octets = 0x3fa

instance (octets : List Octet) : Decidable (Internal6 octets) := by
  unfold Internal6
  infer_instance

def mapped (octets : Vector Octet 16) : Option (Octet × Octet) :=
  if octets.toList.take 12 = v4InV6Prefix then some (octets[12], octets[13]) else none

/-- The address denotes an internal host, in whatever form it is written. -/
def IpAddr.Internal : IpAddr → Prop
  | .v4 a b _ _ => Internal4 a b
  | .v6 octets =>
      match mapped octets with
      | some (a, b) => Internal4 a b
      | none => Internal6 octets.toList

structure FiltersAgree (ip : IpAddr) : Prop where
  alike : ipIsPrivate ip = ipBlocked (some ip.parsed)
  refused : ip.Internal → ipIsPrivate ip = true ∧ ipBlocked (some ip.parsed) = true

/-- The forms on which the filters are alike: of `0.0.0.0/8` only `0.0.0.0`, of
the unspecified addresses only that one, and of the IPv4-mapped addresses none
that stands for an internal host. -/
def IpAddr.Settled : IpAddr → Prop
  | .v4 a b c d => a = 0 → b = 0 ∧ c = 0 ∧ d = 0
  | .v6 octets =>
      number octets.toList ≠ 0 ∧ ∀ pair, mapped octets = some pair → ¬Internal4 pair.1 pair.2

private theorem cidrMask_eq (ones count : Nat) : cidrMask ones count = octetMask ones count := by
  induction count generalizing ones with
  | zero => rfl
  | succ count ih =>
      unfold cidrMask octetMask
      split
      · rename_i whole
        have full : prefixMask 8 ones = 0xff#8 := by
          unfold prefixMask
          rw [Nat.sub_eq_zero_of_le whole]
          rfl
        rw [full, ih]
      · rename_i part
        have mask : ∀ few < 8, ~~~(0xff#8 >>> few) = prefixMask 8 few := by decide
        rw [mask ones (by omega), ih, Nat.sub_eq_zero_of_le (by omega)]

theorem contains_iff (net : IPNet) {ip own : List Octet} (stands : (to4 ip).getD ip = own) :
    net.contains ip = true ↔
      own.length = net.ip.length ∧ leading net.ones net.ip = leading net.ones own := by
  unfold IPNet.contains
  rw [stands]
  simp only [Bool.and_eq_true, beq_iff_eq, cidrMask_eq]
  constructor
  · rintro ⟨even, same⟩
    exact ⟨even, (masked_eq_iff net.ones even.symm).mp same⟩
  · rintro ⟨even, same⟩
    exact ⟨even, (masked_eq_iff net.ones even.symm).mpr same⟩

theorem none_contains {nets : List IPNet} {ip own : List Octet} {size : Nat}
    (stands : (to4 ip).getD ip = own) (sizes : ∀ net ∈ nets, net.ip.length = size)
    (other : own.length ≠ size) : nets.any (fun net => net.contains ip) = false := by
  rw [List.any_eq_false]
  intro net member
  rw [contains_iff net stands, sizes net member]
  exact fun both => other both.1

theorem net4_contains_iff {ip : List Octet} {a b c d : Octet}
    (stands : (to4 ip).getD ip = [a, b, c, d]) (n m : Octet) {ones : Nat}
    (more : 8 ≤ ones) (few : ones ≤ 16) :
    (IPNet.mk [n, m, 0, 0] ones).contains ip = true ↔
      a = n ∧ b.toNat / 2 ^ (16 - ones) = m.toNat / 2 ^ (16 - ones) := by
  have rest : 8 - (ones - 8) = 16 - ones := by omega
  have short : ones - 8 ≤ 8 := by omega
  have even : [m, 0, 0].length = [b, c, d].length := rfl
  have split := leading_cons_eq_iff more n a even
  rw [leading_cons_short short, leading_cons_short short, rest] at split
  rw [contains_iff _ stands]
  change [a, b, c, d].length = [n, m, 0, 0].length ∧
    leading ones [n, m, 0, 0] = leading ones [a, b, c, d] ↔ _
  rw [split, eq_comm (a := n), eq_comm (a := m.toNat / _)]
  exact and_iff_right rfl

theorem blocked_v4_iff {ip : List Octet} {a b c d : Octet}
    (stands : (to4 ip).getD ip = [a, b, c, d]) :
    ipBlocked (some ip) = true ↔ Internal4 a b := by
  have whole (n : Octet) : (IPNet.mk [n, 0, 0, 0] 8).contains ip = true ↔ a = n := by
    rw [net4_contains_iff stands n 0 (by omega) (by omega), Nat.div_eq_of_lt b.isLt]
    exact and_iff_left rfl
  have both (n m : Octet) :
      (IPNet.mk [n, m, 0, 0] 16).contains ip = true ↔ a = n ∧ b = m := by
    rw [net4_contains_iff stands n m (by omega) (by omega), Nat.sub_self, Nat.pow_zero,
      Nat.div_one, Nat.div_one, BitVec.toNat_inj]
  have twelve : (IPNet.mk [172, 16, 0, 0] 12).contains ip = true ↔
      a = 172 ∧ 16 ≤ b.toNat ∧ b.toNat ≤ 31 := by
    rw [net4_contains_iff stands 172 16 (by omega) (by omega)]
    have range : b.toNat / 2 ^ (16 - 12) = (16 : Octet).toNat / 2 ^ (16 - 12) ↔
        16 ≤ b.toNat ∧ b.toNat ≤ 31 := by
      change b.toNat / 16 = 1 ↔ _
      omega
    rw [range]
  have ten : (IPNet.mk [100, 64, 0, 0] 10).contains ip = true ↔
      a = 100 ∧ 64 ≤ b.toNat ∧ b.toNat < 128 := by
    rw [net4_contains_iff stands 100 64 (by omega) (by omega)]
    have range : b.toNat / 2 ^ (16 - 10) = (64 : Octet).toNat / 2 ^ (16 - 10) ↔
        64 ≤ b.toNat ∧ b.toNat < 128 := by
      change b.toNat / 64 = 1 ↔ _
      omega
    rw [range]
  have sizes : ∀ net ∈ blockedNets6, net.ip.length = 16 := by decide
  have six : blockedNets6.any (fun net => net.contains ip) = false :=
    none_contains stands sizes (by simp)
  simp only [ipBlocked, blockedNets, List.any_append, six, Bool.or_false, blockedNets4,
    List.any_cons, List.any_nil, Bool.or_eq_true, whole, both, twelve, ten, Internal4]

theorem private_v4_iff (a b c d : Octet) :
    ipIsPrivate (.v4 a b c d) = true ↔
      Internal4 a b ∧ (a = 0 → b = 0 ∧ c = 0 ∧ d = 0) := by
  have unspecified : number [a, b, c, d] = 0 ↔ a = 0 ∧ b = 0 ∧ c = 0 ∧ d = 0 := by
    simp only [number, List.length_cons, List.length_nil, ← BitVec.toNat_inj]
    change _ ↔ a.toNat = 0 ∧ b.toNat = 0 ∧ c.toNat = 0 ∧ d.toNat = 0
    omega
  simp only [ipIsPrivate, Bool.or_eq_true, Bool.and_eq_true, beq_iff_eq, decide_eq_true_eq,
    unspecified, Internal4]
  by_cases first : a = 0
  · subst first
    simp
  · simp only [first, false_and, or_false, false_implies, and_true, or_assoc]

private theorem exists_octets (octets : Vector Octet 16) :
    ∃ a b rest, octets.toList = [a, b] ++ rest ∧ segment0 octets = a ++ b := by
  obtain ⟨⟨list⟩, size⟩ := octets
  match list, size with
  | a :: b :: rest, size => exact ⟨a, b, rest, rfl, rfl⟩

theorem segment_test (octets : Vector Octet 16) (ones : Nat) (few : ones ≤ 16) (want : BitVec 16) :
    segment0 octets &&& prefixMask 16 ones = want &&& prefixMask 16 ones ↔
      leading ones octets.toList = want.toNat / 2 ^ (16 - ones) := by
  obtain ⟨a, b, rest, list, segment⟩ := exists_octets octets
  have spelled : (a ++ b : BitVec 16).toNat = number [a, b] := by
    rw [BitVec.toNat_append, ← Nat.shiftLeft_add_eq_or_of_lt b.isLt, Nat.shiftLeft_eq]
    simp [number]
  rw [segment, list, leading_append [a, b] rest few, and_prefixMask_eq_iff, spelled]
  rfl

theorem private_v6_iff (octets : Vector Octet 16) :
    ipIsPrivate (.v6 octets) = true ↔ Internal6 octets.toList := by
  have local7 := segment_test octets 7 (by omega) 0xfc00#16
  have link10 := segment_test octets 10 (by omega) 0xfe80#16
  change (segment0 octets &&& 0xfe00#16) = 0xfc00#16 ↔ leading 7 octets.toList = 0x7e at local7
  change (segment0 octets &&& 0xffc0#16) = 0xfe80#16 ↔ leading 10 octets.toList = 0x3fa at link10
  simp only [ipIsPrivate, Bool.or_eq_true, beq_iff_eq, local7, link10, Internal6]
  tauto

theorem blocked_v6_iff {octets : Vector Octet 16} (own : mapped octets = none) :
    ipBlocked (some octets.toList) = true ↔
      Internal6 octets.toList ∧ number octets.toList ≠ 0 := by
  have size : octets.toList.length = 16 := Vector.length_toList
  have stands : (to4 octets.toList).getD octets.toList = octets.toList := by
    have apart : octets.toList.take 12 ≠ v4InV6Prefix := by
      intro same
      unfold mapped at own
      rw [if_pos same] at own
      cases own
    simp [to4, size, apart]
  have sizes : ∀ net ∈ blockedNets4, net.ip.length = 4 := by decide
  have four : blockedNets4.any (fun net => net.contains octets.toList) = false :=
    none_contains stands sizes (by simp)
  have whole : leading 128 octets.toList = number octets.toList := by
    unfold leading
    rw [size, Nat.sub_self, Nat.pow_zero, Nat.div_one]
  have loopback : (IPNet.mk (List.replicate 15 0 ++ [1]) 128).contains octets.toList = true ↔
      number octets.toList = 1 := by
    rw [contains_iff _ stands, size]
    change 16 = 16 ∧ 1 = leading 128 octets.toList ↔ _
    rw [whole, eq_comm (a := 1)]
    exact and_iff_right rfl
  have uniqueLocal : (IPNet.mk (0xfc :: List.replicate 15 0) 7).contains octets.toList = true ↔
      leading 7 octets.toList = 0x7e := by
    rw [contains_iff _ stands, size]
    change 16 = 16 ∧ 0x7e = leading 7 octets.toList ↔ _
    rw [eq_comm (a := 0x7e)]
    exact and_iff_right rfl
  have linkLocal :
      (IPNet.mk (0xfe :: 0x80 :: List.replicate 14 0) 10).contains octets.toList = true ↔
        leading 10 octets.toList = 0x3fa := by
    rw [contains_iff _ stands, size]
    change 16 = 16 ∧ 0x3fa = leading 10 octets.toList ↔ _
    rw [eq_comm (a := 0x3fa)]
    exact and_iff_right rfl
  have blocked : ipBlocked (some octets.toList) = true ↔ number octets.toList = 1 ∨
      leading 7 octets.toList = 0x7e ∨ leading 10 octets.toList = 0x3fa := by
    simp only [ipBlocked, blockedNets, List.any_append, four, Bool.false_or, blockedNets6,
      List.any_cons, List.any_nil, Bool.or_eq_true, loopback, uniqueLocal, linkLocal,
      Bool.false_eq_true, or_false]
  rw [blocked]
  constructor
  · intro held
    refine ⟨.inr held, ?_⟩
    intro zero
    rw [zero] at held
    have nothing (ones : Nat) : leading ones octets.toList = 0 := by
      unfold leading
      rw [zero, Nat.zero_div]
    rw [nothing, nothing] at held
    omega
  · rintro ⟨zero | held, positive⟩
    · exact absurd zero positive
    · exact held

theorem mapped_parts {octets : Vector Octet 16} {a b : Octet}
    (form : mapped octets = some (a, b)) :
    (∃ c d, (to4 octets.toList).getD octets.toList = [a, b, c, d]) ∧
      ¬Internal6 octets.toList ∧ number octets.toList ≠ 0 := by
  have size : octets.toList.length = 16 := Vector.length_toList
  unfold mapped at form
  split at form
  · rename_i front
    obtain ⟨rfl, rfl⟩ : octets[12] = a ∧ octets[13] = b := by simpa using form
    have back : octets.toList.drop 12 = [octets[12], octets[13], octets[14], octets[15]] := by
      apply List.ext_getElem
      · simp
      · intro index inside _
        rw [List.length_drop, size] at inside
        rw [List.getElem_drop]
        match index, inside with
        | 0, _ => simp
        | 1, _ => simp
        | 2, _ => simp
        | 3, _ => simp
    have list : octets.toList = v4InV6Prefix ++ octets.toList.drop 12 := by
      rw [← front, List.take_append_drop]
    have bits (ones : Nat) (few : ones ≤ 8 * v4InV6Prefix.length) :
        leading ones octets.toList = leading ones v4InV6Prefix := by
      rw [list]
      exact leading_append _ _ few
    have large : 65535 * 256 ^ 4 ≤ number octets.toList := by
      rw [list, number_append, List.length_drop, size]
      exact Nat.le_add_right _ _
    refine ⟨⟨octets[14], octets[15], ?_⟩, ?_, by omega⟩
    · simp [to4, size, front, back]
    · unfold Internal6
      rw [bits 7 (by decide), bits 10 (by decide)]
      have none7 : leading 7 v4InV6Prefix = 0 := rfl
      have none10 : leading 10 v4InV6Prefix = 0 := rfl
      omega
  · cases form

/-! ### The two filters -/

/-- The filters agree on an address, and refuse it if it is internal, exactly
where neither family's gaps are met. -/
theorem filters_agree_iff (ip : IpAddr) : FiltersAgree ip ↔ ip.Settled := by
  have split (law : FiltersAgree ip) :
      ipIsPrivate ip = true ↔ ipBlocked (some ip.parsed) = true := by
    rw [law.alike]
  cases ip with
  | v4 a b c d =>
      have blocked : ipBlocked (some (IpAddr.v4 a b c d).parsed) = true ↔ Internal4 a b :=
        blocked_v4_iff (c := c) (d := d) rfl
      constructor
      · intro law zero
        have same := split law
        rw [private_v4_iff, blocked] at same
        have internal : Internal4 a b := by simp [Internal4, zero]
        exact (same.mpr internal).2 zero
      · intro settled
        have same : ipIsPrivate (.v4 a b c d) = true ↔ Internal4 a b := by
          rw [private_v4_iff]
          exact and_iff_left settled
        refine ⟨?_, fun internal => ⟨same.mpr internal, blocked.mpr internal⟩⟩
        rw [Bool.eq_iff_iff, same, blocked]
  | v6 octets =>
      cases form : mapped octets with
      | none =>
          have blocked := blocked_v6_iff form
          change ipBlocked (some (IpAddr.v6 octets).parsed) = true ↔ _ at blocked
          have settled : (IpAddr.v6 octets).Settled ↔ number octets.toList ≠ 0 := by
            simp [IpAddr.Settled, form]
          rw [settled]
          constructor
          · intro law zero
            have same := split law
            rw [private_v6_iff, blocked] at same
            exact (same.mp (.inl zero)).2 zero
          · intro positive
            have same : ipBlocked (some (IpAddr.v6 octets).parsed) = true ↔
                Internal6 octets.toList := blocked.trans (and_iff_left positive)
            refine ⟨?_, ?_⟩
            · rw [Bool.eq_iff_iff, private_v6_iff, same]
            · intro internal
              simp only [IpAddr.Internal, form] at internal
              exact ⟨(private_v6_iff octets).mpr internal, same.mpr internal⟩
      | some pair =>
          obtain ⟨a, b⟩ := pair
          obtain ⟨⟨c, d, stands⟩, outside, positive⟩ := mapped_parts form
          have blocked : ipBlocked (some (IpAddr.v6 octets).parsed) = true ↔ Internal4 a b :=
            blocked_v4_iff stands
          have settled : (IpAddr.v6 octets).Settled ↔ ¬Internal4 a b := by
            simp [IpAddr.Settled, form, positive]
          rw [settled]
          constructor
          · intro law internal
            have same := split law
            rw [private_v6_iff, blocked] at same
            exact outside (same.mpr internal)
          · intro external
            refine ⟨?_, ?_⟩
            · rw [Bool.eq_iff_iff, private_v6_iff, blocked]
              exact iff_of_false outside external
            · intro internal
              simp only [IpAddr.Internal, form] at internal
              exact absurd internal external

def mappedLoopback : IpAddr :=
  .v6 ⟨((v4InV6Prefix ++ [127, 0, 0, 1]).toArray), rfl⟩

def unspecified6 : IpAddr := .v6 (Vector.replicate 16 0)

/-- The API takes the loopback host in its IPv4-mapped form for a public one, and
the orchestrator dials the unspecified address. -/
theorem internal_hosts_pass :
    mappedLoopback.Internal ∧ ipIsPrivate mappedLoopback = false ∧
      ¬FiltersAgree mappedLoopback ∧
      unspecified6.Internal ∧ ipBlocked (some unspecified6.parsed) = false ∧
      ¬FiltersAgree unspecified6 := by
  have passes : ipIsPrivate mappedLoopback = false := by decide
  have dialed : ipBlocked (some unspecified6.parsed) = false := by decide
  have loopback : mappedLoopback.Internal := by
    change Internal4 127 0
    decide
  have unspecified : unspecified6.Internal := by
    change Internal6 _
    decide
  refine ⟨loopback, passes, ?_, unspecified, dialed, ?_⟩
  · intro law
    rw [(law.refused loopback).1] at passes
    cases passes
  · intro law
    rw [(law.refused unspecified).2] at dialed
    cases dialed

end MigrationPlatform.Security
