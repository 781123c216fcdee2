import Mathlib.Algebra.Group.Nat.Defs
import Mathlib.Data.Nat.Notation

/-!
IP addresses as net/netip has them: their kinds, and the prefixes that they lie in.
-/

namespace Netip

/- An address of version 6 may have a zone; the empty one is none. -/
inductive Addr where
  | zero
  | v4 (addr : BitVec 32)
  | v6 (addr : BitVec 128) (zone : List Char)
  deriving DecidableEq

/- Byte `i` of an address, or 16 bits of it. -/
def byte4 (addr : BitVec 32) (i : ℕ) : BitVec 8 := (addr >>> ((3 - i) * 8)).setWidth 8

def byte6 (addr : BitVec 128) (i : ℕ) : BitVec 8 := (addr >>> ((15 - i) * 8)).setWidth 8

def word6 (addr : BitVec 128) (i : ℕ) : BitVec 16 := (addr >>> ((7 - i) * 16)).setWidth 16

namespace Addr

def isValid : Addr → Bool
  | zero => false
  | _ => true

/- Whether the last 32 bits are an address of version 4. -/
def is4In6 : Addr → Bool
  | v6 addr _ => addr >>> 32 == 0xffff#128
  | _ => false

def unmap : Addr → Addr
  | v6 addr zone => if is4In6 (v6 addr zone) then v4 (addr.setWidth 32) else v6 addr zone
  | addr => addr

def withZone (zone : List Char) : Addr → Addr
  | v6 addr _ => v6 addr zone
  | addr => addr

def zone : Addr → List Char
  | v6 _ zone => zone
  | _ => []

def isLoopback (addr : Addr) : Bool :=
  match addr.unmap with
  | zero => false
  | v4 addr => byte4 addr 0 == 127#8
  | v6 addr _ => addr == 1#128

/- These are compared with the zone they have. -/
def isUnspecified (addr : Addr) : Bool := addr == v4 0 || addr == v6 0 []

def isPrivate (addr : Addr) : Bool :=
  match addr.unmap with
  | zero => false
  | v4 addr =>
    byte4 addr 0 == 10#8 || (byte4 addr 0 == 172#8 && byte4 addr 1 &&& 0xf0#8 == 16#8) ||
      (byte4 addr 0 == 192#8 && byte4 addr 1 == 168#8)
  | v6 addr _ => byte6 addr 0 &&& 0xfe#8 == 0xfc#8

def isLinkLocalUnicast (addr : Addr) : Bool :=
  match addr.unmap with
  | zero => false
  | v4 addr => byte4 addr 0 == 169#8 && byte4 addr 1 == 254#8
  | v6 addr _ => word6 addr 0 &&& 0xffc0#16 == 0xfe80#16

def isLinkLocalMulticast (addr : Addr) : Bool :=
  match addr.unmap with
  | zero => false
  | v4 addr => byte4 addr 0 == 224#8 && byte4 addr 1 == 0#8 && byte4 addr 2 == 0#8
  | v6 addr _ => word6 addr 0 &&& 0xff0f#16 == 0xff02#16

def isInterfaceLocalMulticast (addr : Addr) : Bool :=
  match addr.unmap with
  | v6 addr _ => word6 addr 0 &&& 0xff0f#16 == 0xff01#16
  | _ => false

def isMulticast (addr : Addr) : Bool :=
  match addr.unmap with
  | zero => false
  | v4 addr => byte4 addr 0 &&& 0xf0#8 == 0xe0#8
  | v6 addr _ => byte6 addr 0 == 0xff#8

end Addr

structure Prefix where
  addr : Addr
  bits : ℕ

namespace Prefix

/- No address with a zone is in a prefix, and none of the other version. -/
def contains (p : Prefix) (addr : Addr) : Bool :=
  match p.addr, addr with
  | .v4 start, .v4 addr => (addr ^^^ start) >>> (32 - p.bits) == 0
  | .v6 start _, .v6 addr zone =>
    zone == [] && (addr ^^^ start) &&& (BitVec.allOnes 128 <<< (128 - p.bits)) == 0
  | _, _ => false

end Prefix

/-! As ranges of numbers -/

variable {w k : ℕ}

theorem toNat_and_mask (x : BitVec w) (k : ℕ) :
    (x &&& (BitVec.allOnes w <<< k)).toNat = x.toNat / 2 ^ k * 2 ^ k := by
  rw [← BitVec.shiftLeft_ushiftRight, BitVec.toNat_shiftLeft, BitVec.toNat_ushiftRight,
    Nat.shiftRight_eq_div_pow, Nat.shiftLeft_eq]
  exact Nat.mod_eq_of_lt (Nat.lt_of_le_of_lt (Nat.div_mul_le_self _ _) x.isLt)

theorem ushiftRight_eq_iff (x y : BitVec w) (k : ℕ) :
    x >>> k = y >>> k ↔ x.toNat / 2 ^ k = y.toNat / 2 ^ k := by
  rw [BitVec.toNat_eq, BitVec.toNat_ushiftRight, BitVec.toNat_ushiftRight,
    Nat.shiftRight_eq_div_pow, Nat.shiftRight_eq_div_pow]

theorem contains_v4 (start addr : BitVec 32) (bits : ℕ) :
    Prefix.contains ⟨.v4 start, bits⟩ (.v4 addr) = true ↔
      addr.toNat / 2 ^ (32 - bits) = start.toNat / 2 ^ (32 - bits) := by
  rw [← ushiftRight_eq_iff]
  simp only [Prefix.contains, BitVec.ushiftRight_xor_distrib, beq_iff_eq]
  exact BitVec.xor_eq_zero_iff

theorem contains_v6 (start addr : BitVec 128) (zone zone' : List Char) (bits : ℕ) :
    Prefix.contains ⟨.v6 start zone', bits⟩ (.v6 addr zone) = true ↔
      zone = [] ∧ addr.toNat / 2 ^ (128 - bits) = start.toNat / 2 ^ (128 - bits) := by
  rw [← ushiftRight_eq_iff]
  simp only [Prefix.contains, Bool.and_eq_true, beq_iff_eq]
  apply and_congr_right
  rintro -
  have hshift : addr >>> (128 - bits) = start >>> (128 - bits) ↔
      (addr ^^^ start).toNat / 2 ^ (128 - bits) = 0 := by
    rw [← BitVec.xor_eq_zero_iff, ← BitVec.ushiftRight_xor_distrib, BitVec.toNat_eq,
      BitVec.toNat_ushiftRight, Nat.shiftRight_eq_div_pow]
    rfl
  rw [hshift, BitVec.toNat_eq, toNat_and_mask]
  exact Nat.mul_eq_zero.trans (or_iff_left (Nat.pos_iff_ne_zero.mp (Nat.two_pow_pos _)))

@[simp] theorem contains_v6_v4 (start : BitVec 128) (zone : List Char) (bits : ℕ)
    (addr : BitVec 32) : Prefix.contains ⟨.v6 start zone, bits⟩ (.v4 addr) = false := rfl

@[simp] theorem contains_v4_v6 (start : BitVec 32) (bits : ℕ) (addr : BitVec 128)
    (zone : List Char) : Prefix.contains ⟨.v4 start, bits⟩ (.v6 addr zone) = false := rfl

theorem toNat_byte4 (addr : BitVec 32) (i : ℕ) :
    (byte4 addr i).toNat = addr.toNat / 2 ^ ((3 - i) * 8) % 256 := by
  rw [byte4, BitVec.toNat_setWidth, BitVec.toNat_ushiftRight, Nat.shiftRight_eq_div_pow]

theorem toNat_byte6 (addr : BitVec 128) (i : ℕ) :
    (byte6 addr i).toNat = addr.toNat / 2 ^ ((15 - i) * 8) % 256 := by
  rw [byte6, BitVec.toNat_setWidth, BitVec.toNat_ushiftRight, Nat.shiftRight_eq_div_pow]

/- A test of the high bits of a byte or word. -/
theorem and_mask_eq_iff {m c : BitVec w} (hm : m = BitVec.allOnes w <<< k) (x : BitVec w) :
    x &&& m = c ↔ x.toNat / 2 ^ k * 2 ^ k = c.toNat := by
  rw [hm, BitVec.toNat_eq, toNat_and_mask]

theorem toNat_word6 (addr : BitVec 128) (i : ℕ) :
    (word6 addr i).toNat = addr.toNat / 2 ^ ((7 - i) * 16) % 65536 := by
  rw [word6, BitVec.toNat_setWidth, BitVec.toNat_ushiftRight, Nat.shiftRight_eq_div_pow]

/- What is multicast within a scope is multicast. -/
theorem high_of_and_mask {x c : BitVec 16} (hc : c &&& 0xff00#16 = 0xff00#16)
    (h : x &&& 0xff0f#16 = c) : x.toNat / 256 = 255 := by
  have hmask : x &&& 0xff00#16 = 0xff00#16 := by
    calc x &&& 0xff00#16 = x &&& 0xff0f#16 &&& 0xff00#16 := by
          rw [BitVec.and_assoc]
          rfl
      _ = 0xff00#16 := by rw [h, hc]
  have hnat := (and_mask_eq_iff (k := 8) rfl x).mp hmask
  simp only [BitVec.toNat_ofNat] at hnat
  omega

/-! The kinds of addresses of version 4 -/

namespace Addr

section version4
variable (addr : BitVec 32)

theorem isLoopback_v4 : (v4 addr).isLoopback = true ↔ addr.toNat / 2 ^ 24 = 127 := by
  have hlt := addr.isLt
  simp only [isLoopback, unmap, beq_iff_eq, BitVec.toNat_eq, toNat_byte4, BitVec.toNat_ofNat]
  omega

theorem isPrivate_v4 : (v4 addr).isPrivate = true ↔ addr.toNat / 2 ^ 24 = 10 ∨
    addr.toNat / 2 ^ 20 = 0xac1 ∨ addr.toNat / 2 ^ 16 = 0xc0a8 := by
  have hlt := addr.isLt
  simp only [isPrivate, unmap, Bool.or_eq_true, Bool.and_eq_true, beq_iff_eq,
    and_mask_eq_iff (show 0xf0#8 = BitVec.allOnes 8 <<< 4 from rfl)]
  simp only [BitVec.toNat_eq, toNat_byte4, BitVec.toNat_ofNat]
  omega

theorem isLinkLocalUnicast_v4 :
    (v4 addr).isLinkLocalUnicast = true ↔ addr.toNat / 2 ^ 16 = 0xa9fe := by
  have hlt := addr.isLt
  simp only [isLinkLocalUnicast, unmap, Bool.and_eq_true, beq_iff_eq, BitVec.toNat_eq, toNat_byte4,
    BitVec.toNat_ofNat]
  omega

theorem isMulticast_v4 : (v4 addr).isMulticast = true ↔ addr.toNat / 2 ^ 28 = 0xe := by
  have hlt := addr.isLt
  simp only [isMulticast, unmap, beq_iff_eq,
    and_mask_eq_iff (show 0xf0#8 = BitVec.allOnes 8 <<< 4 from rfl)]
  simp only [toNat_byte4, BitVec.toNat_ofNat]
  omega

theorem isMulticast_of_linkLocal_v4 (h : (v4 addr).isLinkLocalMulticast = true) :
    addr.toNat / 2 ^ 28 = 0xe := by
  have hlt := addr.isLt
  simp only [isLinkLocalMulticast, unmap, Bool.and_eq_true, beq_iff_eq, BitVec.toNat_eq, toNat_byte4,
    BitVec.toNat_ofNat] at h
  omega

end version4

/-! Those of version 6 that no address of version 4 is mapped to -/

section version6
variable {addr : BitVec 128} {zone : List Char} (h : (v6 addr zone).unmap = v6 addr zone)
include h

theorem isLoopback_v6 : (v6 addr zone).isLoopback = true ↔ addr.toNat = 1 := by
  simp only [isLoopback, h, beq_iff_eq, BitVec.toNat_eq, BitVec.toNat_ofNat]

theorem isPrivate_v6 : (v6 addr zone).isPrivate = true ↔ addr.toNat / 2 ^ 121 = 0x7e := by
  have hlt := addr.isLt
  simp only [isPrivate, h, beq_iff_eq,
    and_mask_eq_iff (show 0xfe#8 = BitVec.allOnes 8 <<< 1 from rfl)]
  simp only [toNat_byte6, BitVec.toNat_ofNat]
  omega

theorem isLinkLocalUnicast_v6 :
    (v6 addr zone).isLinkLocalUnicast = true ↔ addr.toNat / 2 ^ 118 = 0x3fa := by
  have hlt := addr.isLt
  simp only [isLinkLocalUnicast, h, beq_iff_eq,
    and_mask_eq_iff (show 0xffc0#16 = BitVec.allOnes 16 <<< 6 from rfl)]
  simp only [toNat_word6, BitVec.toNat_ofNat]
  omega

theorem isMulticast_v6 : (v6 addr zone).isMulticast = true ↔ addr.toNat / 2 ^ 120 = 0xff := by
  have hlt := addr.isLt
  simp only [isMulticast, h, beq_iff_eq, BitVec.toNat_eq, toNat_byte6, BitVec.toNat_ofNat]
  omega

theorem isMulticast_of_scope_v6 (hscope : (v6 addr zone).isLinkLocalMulticast = true ∨
    (v6 addr zone).isInterfaceLocalMulticast = true) : addr.toNat / 2 ^ 120 = 0xff := by
  have hlt := addr.isLt
  have hhigh : (word6 addr 0).toNat / 256 = 255 := by
    obtain hscope | hscope := hscope
    · simp only [isLinkLocalMulticast, h, beq_iff_eq] at hscope
      exact high_of_and_mask rfl hscope
    · simp only [isInterfaceLocalMulticast, h, beq_iff_eq] at hscope
      exact high_of_and_mask rfl hscope
  rw [toNat_word6] at hhigh
  omega

end version6

end Addr

end Netip
