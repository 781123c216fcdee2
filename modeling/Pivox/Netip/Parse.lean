import Pivox.Netip.Addr

/-!
The texts of addresses, with a port, that net/netip takes.
-/

namespace Netip

/- The four fields of an address of version 4: `digits` is how many the field that is read has so
far. -/
def parseIPv4Fields (value digits : ℕ) (fields : List ℕ) : List Char → Option (List ℕ)
  | [] => if fields.length < 3 then none else some (fields ++ [value])
  | c :: s =>
    if c.isDigit then
      if digits = 1 ∧ value = 0 then none
      else
        let value := value * 10 + (c.toNat - 48)
        if 255 < value then none else parseIPv4Fields value (digits + 1) fields s
    else if c = '.' then
      if digits = 0 ∨ s = [] then none
      else if fields.length = 3 then none
      else parseIPv4Fields 0 0 (fields ++ [value]) s
    else none

def fromBytes (bytes : List ℕ) : ℕ := bytes.foldl (fun value byte => value * 256 + byte) 0

def parseIPv4 (s : List Char) : Option Addr :=
  (parseIPv4Fields 0 0 [] s).map fun fields => .v4 (BitVec.ofNat 32 (fromBytes fields))

def hexDigit? (c : Char) : Option ℕ :=
  if c.isDigit then some (c.toNat - 48)
  else if 'a' ≤ c ∧ c ≤ 'f' then some (c.toNat - 87)
  else if 'A' ≤ c ∧ c ≤ 'F' then some (c.toNat - 55)
  else none

/- The two bytes of a group of hex digits. -/
def hexBytes (digits : List Char) : List ℕ :=
  let value := digits.foldl (fun value c => value * 16 + (hexDigit? c).getD 0) 0
  [value / 256, value % 256]

/- What is left to read of a version 6 address with room for `n` groups of 16 bits: the bytes, the
place of the ellipsis and what follows. -/
def parseGroups (ellipsis : Option ℕ) (bytes : List ℕ) :
    ℕ → List Char → Option (List ℕ × Option ℕ × List Char)
  | 0, s => some (bytes, ellipsis, s)
  | n + 1, s =>
    let digits := s.takeWhile fun c => (hexDigit? c).isSome
    if digits = [] ∨ 4 < digits.length then none
    else
      match s.dropWhile fun c => (hexDigit? c).isSome with
      | [] => some (bytes ++ hexBytes digits, ellipsis, [])
      | '.' :: _ =>
        if ellipsis = none ∧ bytes.length ≠ 12 then none
        else if 16 < bytes.length + 4 then none
        else (parseIPv4Fields 0 0 [] s).map fun fields => (bytes ++ fields, ellipsis, [])
      | [':'] => none
      | ':' :: ':' :: s =>
        if ellipsis.isSome then none
        else if s = [] then some (bytes ++ hexBytes digits, some (bytes.length + 2), [])
        else parseGroups (some (bytes.length + 2)) (bytes ++ hexBytes digits) n s
      | ':' :: s => parseGroups ellipsis (bytes ++ hexBytes digits) n s
      | _ => none

/- The ellipsis stands for at least one group of zeros. -/
def expand (bytes : List ℕ) : Option ℕ → Option (List ℕ)
  | none => if bytes.length < 16 then none else some bytes
  | some place =>
    if bytes.length < 16 then
      some (bytes.take place ++ List.replicate (16 - bytes.length) 0 ++ bytes.drop place)
    else none

/- Without the zone. -/
def parseIPv6Bytes (s : List Char) : Option (List ℕ) :=
  let groups :=
    match s with
    | [':', ':'] => some ([], some 0, [])
    | ':' :: ':' :: s => parseGroups (some 0) [] 8 s
    | s => parseGroups none [] 8 s
  match groups with
  | some (bytes, ellipsis, []) => expand bytes ellipsis
  | _ => none

def parseIPv6 (s : List Char) : Option Addr :=
  match s.dropWhile (· ≠ '%') with
  | ['%'] => none
  | rest => (parseIPv6Bytes (s.takeWhile (· ≠ '%'))).map fun bytes =>
    .v6 (BitVec.ofNat 128 (fromBytes bytes)) rest.tail

def parseAddr (s : List Char) : Option Addr :=
  match s.find? (· ∈ ['.', ':', '%']) with
  | some '.' => parseIPv4 s
  | some ':' => parseIPv6 s
  | _ => none

def parsePort (s : List Char) : Option ℕ :=
  if s = [] ∨ ¬ s.all Char.isDigit then none
  else
    let value := s.foldl (fun value c => value * 10 + (c.toNat - 48)) 0
    if value < 65536 then some value else none

structure AddrPort where
  addr : Addr
  port : ℕ
  deriving DecidableEq

/- The text of the address, that of the port, and whether the address is in brackets. -/
def splitAddrPort (s : List Char) : Option (List Char × List Char × Bool) :=
  match s.reverse.dropWhile (· ≠ ':') with
  | [] => none
  | _ :: before =>
    let ip := before.reverse
    let port := (s.reverse.takeWhile (· ≠ ':')).reverse
    match ip with
    | [] => none
    | '[' :: bracketed =>
      if port = [] then none
      else if bracketed.getLast? = some ']' then some (bracketed.dropLast, port, true)
      else none
    | _ => if port = [] then none else some (ip, port, false)

def parseAddrPort (s : List Char) : Option AddrPort :=
  match splitAddrPort s with
  | none => none
  | some (ip, port, bracketed) =>
    match parsePort port, parseAddr ip with
    | some port, some (.v4 addr) => if bracketed then none else some ⟨.v4 addr, port⟩
    | some port, some (.v6 addr zone) => if bracketed then some ⟨.v6 addr zone, port⟩ else none
    | _, _ => none

example : parseAddrPort "[64:ff9b::169.254.169.254%eth0]:80".toList =
    some ⟨.v6 0x64ff9b0000000000000000a9fea9fe "eth0".toList, 80⟩ := by decide

/-- What is parsed is an address. -/
theorem isValid_of_parseAddrPort {s : List Char} {addrPort : AddrPort}
    (h : parseAddrPort s = some addrPort) : addrPort.addr.isValid = true := by
  unfold parseAddrPort at h
  split at h
  · cases h
  · split at h
    · split at h
      · cases h
      · cases h
        rfl
    · split at h
      · cases h
        rfl
      · cases h
    · cases h

end Netip
