import Mathlib.Tactic.Tauto
import Pivox.Netip.Parse

/-!
The dialer refuses to connect to an internal address: which addresses it takes for internal, with a
zone and without.
-/

namespace Pivox.Connectors
open Netip

def cgnatPrefix : Prefix := ⟨.v4 0x64400000#32, 10⟩

def thisHostPrefix : Prefix := ⟨.v4 0#32, 8⟩

def nat64Prefix : Prefix := ⟨.v6 0x0064ff9b000000000000000000000000#128 [], 96⟩

def sixToFourPrefix : Prefix := ⟨.v6 0x20020000000000000000000000000000#128 [], 16⟩

def classEPrefix : Prefix := ⟨.v4 0xf0000000#32, 4⟩

def ipv4Broadcast : Addr := .v4 0xffffffff#32

def isInternalAddr (addr : Addr) : Bool :=
  if addr.isValid then
    let addr := addr.unmap
    addr.isLoopback || addr.isUnspecified || addr.isPrivate || addr.isLinkLocalUnicast ||
      addr.isLinkLocalMulticast || addr.isInterfaceLocalMulticast || addr.isMulticast ||
      cgnatPrefix.contains addr || thisHostPrefix.contains addr || classEPrefix.contains addr ||
      nat64Prefix.contains addr || sixToFourPrefix.contains addr || addr == ipv4Broadcast
  else true

inductive DialErr where
  | blockedInternalTarget
  deriving DecidableEq

def blockInternalControl (address : List Char) : Except DialErr Unit :=
  match parseAddrPort address with
  | none => .error .blockedInternalTarget
  | some addrPort =>
    if isInternalAddr addrPort.addr then .error .blockedInternalTarget else .ok ()

/-- What is to be refused: loopback, the unspecified addresses and 0.0.0.0/8, the private ranges of
both versions, link-local and multicast addresses, carrier-grade NAT, class E with the broadcast
address, NAT64 and 6to4. -/
def blockedPrefixes : List Prefix :=
  [⟨.v4 0x7f000000#32, 8⟩, ⟨.v4 0#32, 8⟩, ⟨.v4 0x0a000000#32, 8⟩, ⟨.v4 0xac100000#32, 12⟩,
    ⟨.v4 0xc0a80000#32, 16⟩, ⟨.v4 0xa9fe0000#32, 16⟩, ⟨.v4 0xe0000000#32, 4⟩,
    ⟨.v4 0x64400000#32, 10⟩, ⟨.v4 0xf0000000#32, 4⟩, ⟨.v6 1#128 [], 128⟩, ⟨.v6 0#128 [], 128⟩,
    ⟨.v6 0xfc000000000000000000000000000000#128 [], 7⟩,
    ⟨.v6 0xfe800000000000000000000000000000#128 [], 10⟩,
    ⟨.v6 0xff000000000000000000000000000000#128 [], 8⟩, nat64Prefix, sixToFourPrefix]

/-- Whether an address, without its zone, is to be refused. -/
def Blocked (addr : Addr) : Prop :=
  ∃ p ∈ blockedPrefixes, p.contains (addr.unmap.withZone []) = true

/- The ranges that are looked for with the zone of the address. -/
def ComparedWithZone (addr : Addr) : Prop :=
  ∃ p ∈ [⟨.v6 0#128 [], 128⟩, nat64Prefix, sixToFourPrefix], p.contains (addr.unmap.withZone []) = true

variable {addr : Addr}

theorem unmap_v6_cases (a : BitVec 128) :
    (∃ b, ∀ zone, (Addr.v6 a zone).unmap = .v4 b) ∨ ∀ zone, (Addr.v6 a zone).unmap = .v6 a zone := by
  by_cases hmapped : a >>> 32 = 0xffff#128
  · exact .inl ⟨a.setWidth 32, by simp [Addr.unmap, Addr.is4In6, hmapped]⟩
  · exact .inr (by simp [Addr.unmap, Addr.is4In6, hmapped])

/-! Addresses of version 4 -/

theorem blocked_v4_iff {a : BitVec 32} (h : addr.unmap = .v4 a) : Blocked addr ↔
    a.toNat / 2 ^ 24 ∈ [127, 0, 10] ∨ a.toNat / 2 ^ 20 = 0xac1 ∨
      a.toNat / 2 ^ 16 ∈ [0xc0a8, 0xa9fe] ∨ a.toNat / 2 ^ 22 = 0x191 ∨
      a.toNat / 2 ^ 28 ∈ [0xe, 0xf] := by
  simp only [Blocked, blockedPrefixes, h, Addr.withZone, nat64Prefix, sixToFourPrefix,
    List.mem_cons, List.not_mem_nil, or_false, exists_eq_or_imp, exists_eq_left, contains_v4,
    contains_v6_v4, Bool.false_eq_true, BitVec.toNat_ofNat]
  omega

theorem not_comparedWithZone_v4 {a : BitVec 32} (h : addr.unmap = .v4 a) :
    ¬ ComparedWithZone addr := by
  simp [ComparedWithZone, h, Addr.withZone, nat64Prefix, sixToFourPrefix]

theorem isInternalAddr_v4_iff {a : BitVec 32} (hvalid : addr.isValid = true)
    (h : addr.unmap = .v4 a) : isInternalAddr addr = true ↔ Blocked addr := by
  have hlt := a.isLt
  have hlocal := Addr.isMulticast_of_linkLocal_v4 a
  have hinterface : (Addr.v4 a).isInterfaceLocalMulticast = false := rfl
  have hunspecified : (Addr.v4 a).isUnspecified = true ↔ a.toNat = 0 := by
    simp [Addr.isUnspecified, BitVec.toNat_eq]
  rw [blocked_v4_iff h, isInternalAddr, if_pos hvalid]
  simp only [h, Bool.or_eq_true, Addr.isLoopback_v4, hunspecified, Addr.isPrivate_v4,
    Addr.isLinkLocalUnicast_v4, hinterface, Addr.isMulticast_v4, cgnatPrefix, thisHostPrefix,
    classEPrefix, nat64Prefix, sixToFourPrefix, ipv4Broadcast, contains_v4, contains_v6_v4,
    beq_iff_eq, Addr.v4.injEq, BitVec.toNat_eq, BitVec.toNat_ofNat, List.mem_cons, List.not_mem_nil,
    or_false, Bool.false_eq_true]
  -- Multicast within the local network is in the range of multicast.
  cases hmulticast : (Addr.v4 a).isLinkLocalMulticast with
  | true =>
    have hrange := hlocal hmulticast
    exact iff_of_true (by simp) (by omega)
  | false =>
    simp only [Bool.false_eq_true, or_false]
    omega

/-! Addresses of version 6 -/

variable {a : BitVec 128} {zone : List Char}

theorem comparedWithZone_v6_iff (h : addr.unmap = .v6 a zone) : ComparedWithZone addr ↔
    a.toNat = 0 ∨ a.toNat / 2 ^ 32 = 0x64ff9b0000000000000000 ∨ a.toNat / 2 ^ 112 = 0x2002 := by
  simp only [ComparedWithZone, h, Addr.withZone, nat64Prefix, sixToFourPrefix, List.mem_cons,
    List.not_mem_nil, or_false, exists_eq_or_imp, exists_eq_left, contains_v6, true_and,
    BitVec.toNat_ofNat]
  omega

theorem blocked_v6_iff (h : addr.unmap = .v6 a zone) : Blocked addr ↔
    a.toNat / 2 ^ 120 = 0xff ∨ a.toNat / 2 ^ 121 = 0x7e ∨ a.toNat / 2 ^ 118 = 0x3fa ∨
      a.toNat = 1 ∨ ComparedWithZone addr := by
  rw [comparedWithZone_v6_iff h]
  simp only [Blocked, blockedPrefixes, h, Addr.withZone, nat64Prefix, sixToFourPrefix,
    List.mem_cons, List.not_mem_nil, or_false, exists_eq_or_imp, exists_eq_left, contains_v6,
    contains_v4_v6, Bool.false_eq_true, true_and, false_or, BitVec.toNat_ofNat]
  omega

/-- With a zone, the ranges compared with it are missed. -/
theorem isInternalAddr_v6_iff (hvalid : addr.isValid = true) (h : addr.unmap = .v6 a zone)
    (hself : (Addr.v6 a zone).unmap = .v6 a zone) :
    isInternalAddr addr = true ↔ a.toNat / 2 ^ 120 = 0xff ∨ a.toNat / 2 ^ 121 = 0x7e ∨
      a.toNat / 2 ^ 118 = 0x3fa ∨ a.toNat = 1 ∨ zone = [] ∧ ComparedWithZone addr := by
  have hscope := Addr.isMulticast_of_scope_v6 hself
  have hunspecified : (Addr.v6 a zone).isUnspecified = true ↔ zone = [] ∧ a.toNat = 0 := by
    simp [Addr.isUnspecified, BitVec.toNat_eq, and_comm]
  have hbroadcast : (Addr.v6 a zone == ipv4Broadcast) = false := rfl
  rw [comparedWithZone_v6_iff h, isInternalAddr, if_pos hvalid]
  simp only [h, Bool.or_eq_true, Addr.isLoopback_v6 hself, hunspecified, Addr.isPrivate_v6 hself,
    Addr.isLinkLocalUnicast_v6 hself, Addr.isMulticast_v6 hself, cgnatPrefix, thisHostPrefix,
    classEPrefix, nat64Prefix, sixToFourPrefix, contains_v6, contains_v4_v6, hbroadcast,
    BitVec.toNat_ofNat, Bool.false_eq_true, or_false]
  by_cases hmulticast : a.toNat / 2 ^ 120 = 0xff
  · exact iff_of_true (.inl (.inl (.inr hmulticast))) (.inl hmulticast)
  · have hlocal : (Addr.v6 a zone).isLinkLocalMulticast = false :=
      Bool.eq_false_iff.mpr fun hlocal => hmulticast (hscope (.inl hlocal))
    have hinterface : (Addr.v6 a zone).isInterfaceLocalMulticast = false :=
      Bool.eq_false_iff.mpr fun hinterface => hmulticast (hscope (.inr hinterface))
    simp only [hlocal, hinterface, Bool.false_eq_true, or_false]
    by_cases hzone : zone = []
    · simp only [hzone, true_and]
      omega
    · simp only [hzone, false_and, or_false]
      omega

/-- An address is taken for internal if and only if it is to be refused, and a zone makes no
difference to it, unless it has a zone and is in a range that is compared with the zone. -/
theorem isInternalAddr_iff (hvalid : addr.isValid = true) :
    ((isInternalAddr addr = true ↔ Blocked addr) ∧
      isInternalAddr addr = isInternalAddr (addr.withZone [])) ↔
    ¬ (addr.zone ≠ [] ∧ ComparedWithZone addr) := by
  cases addr with
  | zero => cases hvalid
  | v4 a => simp [isInternalAddr_v4_iff hvalid rfl, Addr.withZone, Addr.zone]
  | v6 a zone =>
    obtain ⟨b, hmapped⟩ | hself := unmap_v6_cases a
    · have hinternal := isInternalAddr_v4_iff hvalid (hmapped zone)
      have hzone : isInternalAddr (.v6 a zone) = isInternalAddr (.v6 a []) := by
        rw [isInternalAddr, isInternalAddr, hmapped, hmapped]
        rfl
      exact iff_of_true ⟨hinternal, hzone⟩ fun h => not_comparedWithZone_v4 (hmapped zone) h.2
    · have hblocked := blocked_v6_iff (hself zone)
      have hcompared := comparedWithZone_v6_iff (hself zone)
      have hinternal := isInternalAddr_v6_iff hvalid (hself zone) (hself zone)
      have hinternal' := isInternalAddr_v6_iff (show (Addr.v6 a []).isValid = true from rfl)
        (hself []) (hself [])
      rw [comparedWithZone_v6_iff (hself []), ← hcompared] at hinternal'
      have hzone : isInternalAddr (.v6 a zone) = isInternalAddr (.v6 a []) ↔
          (isInternalAddr (.v6 a zone) = true ↔ isInternalAddr (.v6 a []) = true) :=
        Bool.eq_iff_iff
      rw [Addr.withZone, Addr.zone, hzone, hinternal, hinternal', hblocked]
      by_cases hrange : ComparedWithZone (.v6 a zone)
      · -- The ranges are apart from those that are found with any zone.
        have hnat := hcompared.mp hrange
        have hmulticast : a.toNat / 2 ^ 120 ≠ 0xff := by omega
        have hprivate : a.toNat / 2 ^ 121 ≠ 0x7e := by omega
        have hlocal : a.toNat / 2 ^ 118 ≠ 0x3fa := by omega
        have hloopback : a.toNat ≠ 1 := by omega
        generalize a.toNat / 2 ^ 120 = multicast, a.toNat / 2 ^ 121 = unique,
          a.toNat / 2 ^ 118 = link at hmulticast hprivate hlocal ⊢
        simp [hrange, hmulticast, hprivate, hlocal, hloopback]
      · simp [hrange]

/-- A dial address is refused if and only if its address is to be, and a zone makes no difference to
it, unless it has a zone and is the unspecified address or one of NAT64 or 6to4. -/
theorem block_internal_control_iff {address : List Char} {addrPort : AddrPort}
    (h : parseAddrPort address = some addrPort) :
    ((blockInternalControl address = .error .blockedInternalTarget ↔ Blocked addrPort.addr) ∧
      isInternalAddr addrPort.addr = isInternalAddr (addrPort.addr.withZone [])) ↔
    ¬ (addrPort.addr.zone ≠ [] ∧ ComparedWithZone addrPort.addr) := by
  have hcontrol : blockInternalControl address = .error .blockedInternalTarget ↔
      isInternalAddr addrPort.addr = true := by
    rw [blockInternalControl, h]
    dsimp only
    split <;> simp_all
  rw [hcontrol]
  exact isInternalAddr_iff (isValid_of_parseAddrPort h)

theorem block_internal_control_iff_public :
    blockInternalControl "[2001:db8::1%eth0]:443".toList ≠ .error .blockedInternalTarget ∧
      isInternalAddr (.v6 0x20010db8000000000000000000000001#128 "eth0".toList) =
        isInternalAddr (.v6 0x20010db8000000000000000000000001#128 []) := by
  have hparse : parseAddrPort "[2001:db8::1%eth0]:443".toList =
      some ⟨.v6 0x20010db8000000000000000000000001#128 "eth0".toList, 443⟩ := by decide
  have hcompared :
      ¬ ComparedWithZone (.v6 0x20010db8000000000000000000000001#128 "eth0".toList) := by
    unfold ComparedWithZone
    decide
  have hblocked : ¬ Blocked (.v6 0x20010db8000000000000000000000001#128 "eth0".toList) := by
    unfold Blocked
    decide
  have hcontrol := (block_internal_control_iff hparse).mpr fun h => hcompared h.2
  exact ⟨fun h => hblocked (hcontrol.1.mp h), hcontrol.2⟩

/-- The metadata address behind NAT64 is dialled when it has a zone. -/
theorem internal_target_not_blocked :
    ¬ ∀ address addrPort, parseAddrPort address = some addrPort →
      (blockInternalControl address = .error .blockedInternalTarget ↔ Blocked addrPort.addr) ∧
        isInternalAddr addrPort.addr = isInternalAddr (addrPort.addr.withZone []) := by
  intro h
  have hparse : parseAddrPort "[64:ff9b::169.254.169.254%eth0]:80".toList =
      some ⟨.v6 0x64ff9b0000000000000000a9fea9fe#128 "eth0".toList, 80⟩ := by decide
  have hdialled :
      (blockInternalControl "[64:ff9b::169.254.169.254%eth0]:80".toList).toBool = true := by decide
  have hblocked : Blocked (.v6 0x64ff9b0000000000000000a9fea9fe#128 "eth0".toList) :=
    ⟨nat64Prefix, by simp [blockedPrefixes], by decide⟩
  have hrefused := (h _ _ hparse).1.mpr hblocked
  rw [hrefused] at hdialled
  cases hdialled

end Pivox.Connectors
