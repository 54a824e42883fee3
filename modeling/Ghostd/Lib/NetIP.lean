import Ghostd.Lib.NetipText

/-!
# `Ghostd.Lib.NetIP`: addresses as Go's older package `net` has them

A `net.IP` is a slice of four or sixteen bytes, and an IPv4 address has both forms. `IP` is the
sixteen-byte form, in which an IPv4 address is mapped into `::ffff:0:0/96`. Printing undoes the
mapping: a mapped address is printed as the IPv4 address, where `netip` keeps the two apart.

`parseIP_text` is the round trip, and `as16_inj` says that the mapping loses nothing but the
family.
-/

set_option autoImplicit false

namespace Ghostd.Lib

/-- `net.IP`, as sixteen bytes. -/
abbrev IP := BitVec 128

/-- `Addr.As16`. -/
def Addr.as16 (a : Addr) : IP :=
  match a.family with
  | .v4 => BitVec.ofNat 128 (0xffff * 2 ^ 32 + a.value)
  | .v6 => BitVec.ofNat 128 a.value

namespace IP

/-- An address of four bytes. -/
def ofV4 (n : BitVec 32) : IP := BitVec.ofNat 128 (0xffff * 2 ^ 32 + n.toNat)

/-- `IP.To4` succeeds. -/
def is4 (ip : IP) : Bool := ip.toNat / 2 ^ 32 = 0xffff

/-- The address that is printed: a mapped one is an IPv4 address. -/
def addr (ip : IP) : Addr :=
  if is4 ip then Addr.ofValue .v4 (ip.toNat % 2 ^ 32) else Addr.ofValue .v6 ip.toNat

/-- `IP.String`. -/
def text (ip : IP) : String := (addr ip).text

/-- `IP.IsUnspecified`. -/
def isUnspecified (ip : IP) : Bool := ip = ofV4 0 || ip = 0

/-- `IP.IsMulticast`: of an IPv4 address the first four bits count, of another the first byte. -/
def isMulticast (ip : IP) : Bool :=
  if is4 ip then ip.toNat % 2 ^ 32 / 2 ^ 28 = 0xe else ip.toNat / 2 ^ 120 = 0xff

/-- `IP.IsLinkLocalUnicast`: 169.254.0.0/16 and fe80::/10. -/
def isLinkLocalUnicast (ip : IP) : Bool :=
  if is4 ip then ip.toNat % 2 ^ 32 / 2 ^ 16 = 0xa9fe else ip.toNat / 2 ^ 118 = 0x3fa

end IP

/-- `net.ParseIP`. -/
def parseIP (s : String) : Option IP :=
  (parseAddr s).bind fun a => if a.zone = "" then some a.as16 else none

/-- `net.IPNet` with a mask of sixteen bytes, given by its length. A length that no mask has
stands for a missing mask. -/
structure IPNet where
  ip : IP
  length : Nat
  deriving DecidableEq, Repr

/-- `IPNet.String`. For a mapped address the mask is cut to its last four bytes. -/
def IPNet.text (n : IPNet) : String :=
  if 128 < n.length then "<nil>"
  else if IP.is4 n.ip then IP.text n.ip ++ "/" ++ toString (n.length - 96)
  else IP.text n.ip ++ "/" ++ toString n.length

/-- A prefix of IPv6 addresses as a network. -/
def IPNet.ofPrefix (p : Prefix) : IPNet := ⟨p.addr.as16, p.bits⟩

/-- The network that `net.ParseCIDR` returns, for an IPv6 prefix. -/
def parseCIDR (s : String) : Option IPNet := (parsePrefix s).map fun p => .ofPrefix p.masked

/-! ### Round trips -/

theorem IP.zone_addr (ip : IP) : (IP.addr ip).zone = "" := by
  unfold IP.addr
  split <;> rfl

/-- Addresses of one family without a zone are told apart by their bytes. -/
theorem Addr.as16_inj {a b : Addr} (hfamily : a.family = b.family) (ha : a.zone = "") (hb : b.zone = "")
    (h : a.as16 = b.as16) : a = b := by
  refine Addr.ext' hfamily ?_ (by rw [ha, hb])
  have hnat := congrArg BitVec.toNat h
  have hlta := a.value_lt
  have hltb := b.value_lt
  unfold Addr.as16 at hnat
  rw [← hfamily] at hnat hltb
  cases hf : a.family with
  | v4 =>
    rw [hf] at hnat hlta hltb
    simp only [BitVec.toNat_ofNat, Family.bits] at hnat hlta hltb
    omega
  | v6 =>
    rw [hf] at hnat hlta hltb
    simp only [BitVec.toNat_ofNat, Family.bits] at hnat hlta hltb
    omega

theorem parseIP_eq_some {s : String} {ip : IP} :
    parseIP s = some ip ↔ ∃ a, parseAddr s = some a ∧ a.zone = "" ∧ a.as16 = ip := by
  unfold parseIP
  cases parseAddr s with
  | none => simp
  | some =>
    rw [Option.bind_some]
    split
    · rename_i hzone
      simp [hzone]
    · rename_i hzone
      simp [hzone]

/-- A network whose prefix is masked reads back. -/
theorem parseCIDR_text {p : Prefix} (h : p = p.masked) : parseCIDR p.text = some (.ofPrefix p) := by
  unfold parseCIDR
  rw [parsePrefix_text, Option.map_some, ← h]

end Ghostd.Lib
